import LexiconAudit.Node.Markup
import LexiconAudit.Sha256
import LexiconAudit.Text.Utf8

/-!
This module contains the digest of a tree: that of its written form on one line.
-/

namespace LexiconAudit.Node

def digest (node : Node) : String :=
  Sha256.hexDigest (Text.Utf8.encode node.toXml)

end LexiconAudit.Node
