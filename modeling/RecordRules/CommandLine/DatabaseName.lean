/-
Names of databases.

A database is named by a path, by `:memory:` if it is not to be kept, or by a URI that starts with
`file:` and may end in options.  A command writes, so a name that allows only reading is refused.
-/
import RecordRules.Json.Token

namespace RecordRules
namespace CommandLine

inductive DatabasePlace where
  /-- Nowhere: it is gone after the command. -/
  | transient
  | file (path : String) (mayBeMade : Bool)
deriving DecidableEq

namespace DatabasePlace

def ofPlainName (name : String) : DatabasePlace :=
  if name = "" ∨ name = ":memory:" then transient else file name true

/-! ## Escapes -/

/-- The bytes of a part of a URI, in which `%` and two hexadecimal digits stand for a byte.  A zero
byte ends the part. -/
def bytes : List Char → List UInt8
  | '%' :: a :: b :: rest =>
    match Json.Token.hexDigit? a, Json.Token.hexDigit? b with
    | some high, some low =>
      let n := 16 * high + low
      if n = 0 then [] else UInt8.ofNat n :: bytes rest
    | _, _ => (String.singleton '%').toUTF8.toList ++ bytes (a :: b :: rest)
  | c :: rest => (String.singleton c).toUTF8.toList ++ bytes rest
  | [] => []

def decoded? (s : List Char) : Option String := String.fromUTF8? ⟨(bytes s).toArray⟩

/-! ## Options -/

/-- What may be done with a database, from little to much. -/
inductive Access where
  | reading
  | writing
  | making
  | transient
deriving DecidableEq

namespace Access

def rank : Access → Nat
  | reading => 0
  | writing => 1
  | making => 2
  | transient => 3

def ofName? (s : String) : Option Access :=
  if s = "ro" then some reading
  else if s = "rw" then some writing
  else if s = "rwc" then some making
  else if s = "memory" then some transient
  else none

/-- An option may take rights away, or do without a file. -/
def restrictedTo? (old new : Access) : Option Access :=
  if new = transient ∨ new.rank ≤ old.rank then some new else none

end Access

/-- What an option makes of the access so far.  An option of another name means nothing. -/
def withOption? (access : Access) (option : List Char × List Char) : Option Access :=
  match decoded? option.1, decoded? option.2 with
  | some "mode", some value => (Access.ofName? value).bind access.restrictedTo?
  | some "cache", some value => if value = "shared" ∨ value = "private" then some access else none
  | _, _ => some access

def cutAt (c : Char) (s : List Char) : List Char × List Char :=
  (s.takeWhile (· != c), (s.dropWhile (· != c)).drop 1)

def options (s : List Char) : List (List Char × List Char) := go s.length s
where
  go : Nat → List Char → List (List Char × List Char)
    | 0, _ => []
    | n + 1, s => cutAt '=' (cutAt '&' s).1 :: go n (cutAt '&' s).2

/-! ## URIs -/

/-- What follows the authority of a URI, which is missing, empty or this machine. -/
def afterAuthority? : List Char → Option (List Char)
  | '/' :: '/' :: rest =>
    let authority := rest.takeWhile (· != '/')
    if authority.isEmpty || authority == "localhost".toList then some (rest.dropWhile (· != '/'))
    else none
  | s => some s

def ofUri? (s : List Char) : Option DatabasePlace := do
  let (path, query) := cutAt '?' (cutAt '#' (← afterAuthority? s)).1
  match ← (options query).foldlM withOption? .making with
  | .transient => return .transient
  | .making => return ofPlainName (← decoded? path)
  | .writing =>
    match ofPlainName (← decoded? path) with
    | .transient => return .transient
    | .file path _ => return .file path false
  | .reading => none

/-- The place that a name stands for, if it stands for one. -/
def ofName? (name : String) : Option DatabasePlace :=
  match name.toList with
  | 'f' :: 'i' :: 'l' :: 'e' :: ':' :: uri => ofUri? uri
  | _ => some (ofPlainName name)

def path? : DatabasePlace → Option String
  | transient => none
  | file path _ => some path

end DatabasePlace
end CommandLine
end RecordRules
