/-
The arguments of the command line.

Reading runs over the arguments one after another and keeps a `Reading`: the command that has been
entered, its options so far, its other words, and the option whose value comes next.  An option is
given at most once to a command.  `Command.ofArguments?` then checks that everything a command
needs is there.
-/
import RecordRules.Event
import RecordRules.Address

namespace RecordRules
namespace CommandLine

/-! ## Options -/

/-- An option by its long name and, if it has one, its letter. -/
structure Switch where
  name : String
  letter : Option Char
  takesValue : Bool

/-- Where in the command line a reader is. -/
inductive Level where
  | top
  | apply
  | reference
  | buildReference
  | parseReference
deriving DecidableEq

namespace Level

def verbose : Switch := ⟨"verbose", some 'v', false⟩

def switches : Level → List Switch
  | apply => [
    verbose,
    ⟨"schema", some 's', true⟩,
    ⟨"records", some 'r', true⟩,
    ⟨"config", some 'c', true⟩,
    ⟨"db", none, true⟩,
    ⟨"module", some 'm', true⟩,
    ⟨"record", none, true⟩,
    ⟨"event", some 'e', true⟩,
    ⟨"data", some 'd', true⟩,
    ⟨"dump", none, false⟩]
  | parseReference => [verbose, ⟨"schema", some 's', true⟩]
  | _ => [verbose]

/-- The command that a word leads into, at a level that commands branch off from. -/
def enter? : Level → String → Option Level
  | top, word =>
    if word = "apply" then some apply else if word = "ref" then some reference else none
  | reference, word =>
    if word = "build" then some buildReference
    else if word = "parse" then some parseReference
    else none
  | _, _ => none

def branches : Level → Bool
  | top | reference => true
  | _ => false

end Level

/-! ## Reading -/

/-- The state of a reader. -/
structure Reading where
  level : Level
  given : List (String × String)
  words : List String
  pending : Option String
  literal : Bool

namespace Reading

def start : Reading :=
  { level := .top, given := [], words := [], pending := none, literal := false }

def give (r : Reading) (name value : String) : Option Reading :=
  if r.given.any fun g => g.1 == name then none
  else some { r with given := r.given ++ [(name, value)], pending := none }

/-- A word: the name of a command where commands branch off. -/
def word (r : Reading) (s : String) : Option Reading :=
  if r.level.branches then
    if r.literal then none else (r.level.enter? s).map fun level => { start with level }
  else some { r with words := r.words ++ [s] }

/-- An option by its long name, perhaps with a value after an equals sign. -/
def long (r : Reading) (text : List Char) : Option Reading :=
  let name := String.ofList (text.takeWhile fun c => c != '=')
  match r.level.switches.find? fun s => s.name == name, text.dropWhile fun c => c != '=' with
  | none, _ => none
  | some ⟨_, _, true⟩, '=' :: value => r.give name (String.ofList value)
  | some ⟨_, _, true⟩, _ => some { r with pending := some name }
  | some ⟨_, _, false⟩, '=' :: _ => none
  | some ⟨_, _, false⟩, _ => r.give name ""

/-- Options by their letters.  What follows the letter of an option that takes a value is the value,
an equals sign in front of it aside. -/
def letters (r : Reading) : List Char → Option Reading
  | [] => some r
  | c :: rest =>
    match r.level.switches.find? fun s => s.letter == some c with
    | none => none
    | some ⟨name, _, false⟩ => (r.give name "").bind fun r => letters r rest
    | some ⟨name, _, true⟩ =>
      match rest with
      | [] => some { r with pending := some name }
      | '=' :: value => r.give name (String.ofList value)
      | value => r.give name (String.ofList value)

def step (r : Reading) (argument : String) : Option Reading :=
  if r.literal then r.word argument
  else
    match r.pending, argument.toList with
    | none, ['-', '-'] => some { r with literal := true }
    | none, '-' :: '-' :: text => r.long text
    | none, '-' :: c :: text => r.letters (c :: text)
    | none, _ => r.word argument
    | some _, '-' :: _ :: _ => none
    | some name, _ => r.give name argument

def value? (r : Reading) (name : String) : Option String := r.given.lookup name

/-- The file that an option names, which has to have a name. -/
def file (r : Reading) (name : String) : Option (Option String) :=
  match r.value? name with
  | none => some none
  | some path => if path.isEmpty then none else some (some path)

end Reading

/-! ## Commands -/

/-- What `apply` is asked to do. -/
structure Request where
  schema : String
  records : Option String
  config : Option String
  database : Option String
  module : ModuleId
  record : RecordId
  event : Event
  data : Option String
  dump : Bool

/-- A command that can be run. -/
inductive Command where
  | apply (request : Request)
  | buildReference (target : Target)
  /-- Takes an address apart and, given a schema, looks up the names. -/
  | parseReference (address : String) (schema : Option String)

namespace Command

def requestOf? (r : Reading) : Option Request := do
  let [] := r.words | none
  return {
    schema := ← (← r.file "schema")
    records := ← r.file "records"
    config := ← r.file "config"
    database := ← r.file "db"
    module := ← Ident.ofString? (← r.value? "module")
    record := ← Ident.ofString? (← r.value? "record")
    event := ← (Event.parse ((r.value? "event").getD Event.create.name)).toOption
    data := ← r.file "data"
    dump := (r.value? "dump").isSome }

def ofReading? (r : Reading) : Option Command :=
  if r.pending.isSome then none
  else
    match r.level, r.words with
    | .apply, _ => (requestOf? r).map apply
    | .buildReference, [module, field] => do
      return buildReference ⟨← Ident.ofString? module, ← Ident.ofString? field⟩
    | .parseReference, [address] => (r.file "schema").map (parseReference address)
    | _, _ => none

def ofArguments? (arguments : List String) : Option Command :=
  (arguments.foldlM Reading.step Reading.start).bind ofReading?

end Command
end CommandLine
end RecordRules
