/-
Files as commands see them.

A workspace holds what files contain, by path, and the folders in which files may be made.  A file
is a text or a table of records.
-/
import RecordRules.Assoc
import RecordRules.Store.Table

namespace RecordRules
namespace CommandLine

inductive Content where
  | text (s : String)
  | table (t : TableStore)
  | other

namespace Content

/-- The first line of a file that holds a table. -/
def tableHeading : String := "record table\n"

def tableText (t : TableStore) : String :=
  tableHeading ++ (Json.array (t.rows.map Row.toJson)).text

def rowsOfText? (s : String) : Option (List Row) :=
  if tableHeading.toList.isPrefixOf s.toList then
    (Json.Tree.parse? (String.ofList (s.toList.drop tableHeading.length))).bind
      (Json.Reader.list Row.ofJson?)
  else none

/-- What a file of a text contains. -/
def ofText (s : String) : Content :=
  match rowsOfText? s with
  | some rows => table ⟨rows⟩
  | none => text s

end Content

/-! ## Paths -/

def pathParts : List Char → List (List Char)
  | [] => [[]]
  | '/' :: rest => [] :: pathParts rest
  | c :: rest =>
    match pathParts rest with
    | [] => [[c]]
    | part :: others => (c :: part) :: others

/-- A file or a folder by the steps that lead to it, the last one first. -/
abbrev Location := List String

namespace Location

def out : String := ".."

def top : String := "/"

/-- Where a part of a path leads.  A part that is empty or a single point stays where it is, and two
points lead back by a step. -/
def follow (here : Location) (part : String) : Location :=
  if part = "" ∨ part = "." then here
  else if part = out then
    match here with
    | [] => [out]
    | step :: back => if step = out then out :: here else if step = top then here else back
  else part :: here

def start (path : String) : Location := if path.toList.head? = some '/' then [top] else []

def parts (path : String) : List String := (pathParts path.toList).map String.ofList

def ofPath (path : String) : Location := (parts path).foldl follow (start path)

/-- The places at which the parts of a path are followed. -/
def passed : Location → List String → List Location
  | _, [] => []
  | here, part :: rest => here :: passed (follow here part) rest

/-- The folders that have to be there for a path to lead to a file. -/
def foldersOn (path : String) : List Location := passed (start path) (parts path)

end Location

/-- The files that commands can see. -/
structure Workspace where
  files : Assoc Location Content
  /-- The folders that are there, apart from the one that commands run in and those around it. -/
  folders : List Location

namespace Workspace

def empty : Workspace := ⟨[], []⟩

def content? (w : Workspace) (path : String) : Option Content :=
  Assoc.get? (Location.ofPath path) w.files

def put (w : Workspace) (path : String) (c : Content) : Workspace :=
  { w with files := Assoc.put (Location.ofPath path) c w.files }

def withFolders (w : Workspace) (path : String) : Workspace :=
  { w with folders := Location.foldersOn path ++ w.folders }

def isFolder (w : Workspace) : Location → Bool
  | [] => true
  | step :: back =>
    step == Location.out || step == Location.top || w.folders.contains (step :: back)

/-- The text of the file at a path, which passes through folders only. -/
def text? (w : Workspace) (path : String) : Option String :=
  match (Location.foldersOn path).all w.isFolder, w.content? path with
  | true, some (.text s) => some s
  | _, _ => none

/-- A file can be made where a path leads: nothing else is there, and the folder is. -/
def hasRoom (w : Workspace) (path : String) : Bool :=
  let place := Location.ofPath path
  !w.isFolder place && w.isFolder place.tail

/-- The table of records where a path leads, whatever it passes.  An empty file holds no records,
nor does one that is yet to be made. -/
def table? (w : Workspace) (path : String) (mayBeMade : Bool) : Option TableStore :=
  match w.content? path with
  | some (.table t) => some t
  | some (.text "") => some .empty
  | some _ => none
  | none => if mayBeMade && w.hasRoom path then some .empty else none

end Workspace
end CommandLine
end RecordRules
