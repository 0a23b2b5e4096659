import LexiconAudit.Database.Store
import LexiconAudit.Keyed

/-!
This module contains the store that holds its collections itself.
-/

namespace LexiconAudit.Database

/--
Collections under the name of their database and their own name, in the order in which they were made.
-/
structure Memory where
  databases : List (String × List (String × List Json)) := []
  deriving Inhabited

namespace Memory

def replace (memory : Memory) (database collection : String) (documents : List Json) : Memory :=
  { databases := Keyed.alter database
      (fun collections? => Keyed.set collection documents (collections?.getD [])) memory.databases }

def insert (memory : Memory) (database collection : String) (document : Json) : Memory :=
  { databases := Keyed.alter database
      (fun collections? => Keyed.alter collection (·.getD [] ++ [document]) (collections?.getD []))
      memory.databases }

def documents (memory : Memory) (database collection : String) : List Json :=
  ((memory.databases.lookup database).bind (·.lookup collection)).getD []

def size (memory : Memory) : Nat :=
  (memory.databases.flatMap Prod.snd).foldl (fun n (_, documents) => n + documents.length) 0

def isEmpty (memory : Memory) : Bool :=
  memory.size == 0

def store (memory : Memory) : Store where
  findAll database collection := .ok (memory.documents database collection)

end Memory

end LexiconAudit.Database
