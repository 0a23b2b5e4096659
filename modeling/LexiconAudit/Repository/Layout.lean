import LexiconAudit.Node.Vocabulary
import LexiconAudit.Repository.Discrepancy
import LexiconAudit.Text.Normal

/-!
This module contains the layout of a repository: the directory that holds the files of the lexicon, the
file that holds the notes, and the search for the file that an entry is in.
-/

namespace LexiconAudit.Repository

def lexiconDirectory (root : String) : String :=
  Files.join (Files.join root "Linguistics") "Lexicon"

def notesFile (root : String) : String :=
  Files.join root "Lexicon.fwstub.ChorusNotes"

/--
Whether a name is that of a file of the lexicon: it has the right start and end, which do not overlap, and
nothing breaks the line between them.
-/
def isLexiconFile (name : String) : Bool :=
  match Text.afterMark? "Lexicon_".toList name.toList with
  | none => false
  | some rest =>
    match Text.afterMark? ".lexdb".toList.reverse rest.reverse with
    | none => false
    | some middle => !middle.contains '\n'

def lexiconFiles (files : Files.Tree) (root : String) : Except Discrepancy (List String) :=
  let directory := lexiconDirectory root
  match files.list directory with
  | .error .notFound => .ok []
  | .error fault => .error (.unreadable directory fault)
  | .ok names =>
    .ok <| ((names.filter isLexiconFile).mergeSort fun a b => !decide (b < a)).map (Files.join directory)

/--
The first of some files whose text, without its layout, contains `key`.
-/
def firstContaining (files : Files.Tree) (key : List Char) :
    List String → Except Discrepancy (Option String)
  | [] => .ok none
  | path :: paths =>
    match files.readText path with
    | .error fault => .error (.unreadable path fault)
    | .ok text =>
      if Text.occurs key (Text.stripLayout text.toList) then
        .ok (some path)
      else
        firstContaining files key paths

/--
Where a verification finds its files: the one that holds an entry, given by the search key of its form, and
the one that holds the notes.
-/
structure Locator where
  locate : (key : List Char) → Except Discrepancy (Option String)
  notes : String

def Locator.ofRoot (files : Files.Tree) (root : String) : Locator where
  locate key := do firstContaining files key (← lexiconFiles files root)
  notes := notesFile root

def Locator.fixed (path : String) : Locator where
  locate _ := .ok (some path)
  notes := path

def searchKey (form : Node) : List Char :=
  Text.stripLayout form.toXml.toList

end LexiconAudit.Repository
