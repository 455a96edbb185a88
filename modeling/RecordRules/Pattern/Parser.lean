/-
Reading patterns.

The reader goes through a pattern character by character and keeps the groups that are still open
on a stack, with the flags to go back to when a group closes.  Each step takes at least one
character.  Escapes, classes, flags and repetition counts are read by functions of their own, which
return what is left of the pattern.
-/
import RecordRules.Pattern.Size
import RecordRules.Text.Blank
import RecordRules.Text.Letter
import RecordRules.Json.Token

namespace RecordRules

/-- What is wrong with a pattern. -/
inductive PatternError where
  | tooMuchNesting
  | tooLarge
  | duplicateGroupName
  | unclosedGroup
  | unclosedGroupOption
  | unopenedGroup
  | lookAround
  | emptyFlags
  | missingGroupName
  | invalidGroupName
  | unclosedGroupName
  | emptyGroupName
  | unknownFlag
  | repeatedFlagNegation
  | duplicateFlag
  | unclosedFlags
  | danglingFlagNegation
  | decimalMissing
  | decimalInvalid
  | hexBraceDigit
  | hexBraceUnclosed
  | hexBraceEmpty
  | hexBraceInvalid
  | hexFixedEnd
  | hexFixedDigit
  | hexFixedInvalid
  | hexEnd
  | escapeEnd
  | backreference
  | unicodeClass
  | unknownEscape
  | nothingToRepeat
  | nothingToRepeatCounted
  | countUnclosed
  | countLeastUnclosed
  | countCommaUnclosed
  | countMostUnclosed
  | countInvalid
  | countOrder
  | classUnclosedAfterItem
  | classRangeEnds
  | classItem
  | classUnclosedAfterDash
  | classUnclosedAfterNegation
  | classUnclosedAfterBracket
  | classRangeOrder
  | classUnclosed
  | classNested
  | classIntersection
  | classDifference
  | classSymmetricDifference
  | boundaryUnclosed
  | boundaryUnknown
  | boundaryEnd
deriving DecidableEq

def PatternError.message : PatternError → String
  | tooMuchNesting => "pattern has too much nesting"
  | tooLarge => "compiled regex exceeded size limit"
  | duplicateGroupName => "duplicate capture group name"
  | unclosedGroup => "found open group without closing ')'"
  | unclosedGroupOption => "expected closing ')', but got end of pattern"
  | unopenedGroup => "found closing ')' without matching '('"
  | lookAround => "look-around is not supported"
  | emptyFlags => "empty flag directive '(?)' is not allowed"
  | missingGroupName => "expected capture group name, but got end of pattern"
  | invalidGroupName => "invalid group name"
  | unclosedGroupName => "expected end of capture group name, but got end of pattern"
  | emptyGroupName => "empty capture group names are not allowed"
  | unknownFlag => "unrecognized inline flag"
  | repeatedFlagNegation => "inline flag negation cannot be repeated"
  | duplicateFlag => "duplicate inline flag is not allowed"
  | unclosedFlags => "expected ':' or ')' to end inline flags, but got end of pattern"
  | danglingFlagNegation => "inline flags cannot end with negation directive"
  | decimalMissing => "expected decimal number, but found no digits"
  | decimalInvalid => "got invalid decimal number"
  | hexBraceDigit => "expected hexadecimal number in braces, but got non-hex digit"
  | hexBraceUnclosed => "expected hexadecimal number, but saw end of pattern before closing brace"
  | hexBraceEmpty => "expected hexadecimal number in braces, but got no digits"
  | hexBraceInvalid => "got invalid hexadecimal number in braces"
  | hexFixedEnd => "expected fixed length hexadecimal number, but saw end of pattern first"
  | hexFixedDigit => "expected fixed length hexadecimal number, but got non-hex digit"
  | hexFixedInvalid => "got invalid fixed length hexadecimal number"
  | hexEnd => "expected hexadecimal number, but saw end of pattern first"
  | escapeEnd => "saw start of escape sequence, but saw end of pattern before it finished"
  | backreference => "backreferences are not supported"
  | unicodeClass => "Unicode character classes are not supported"
  | unknownEscape => "unrecognized escape sequence"
  | nothingToRepeat => "uncounted repetition operator must be applied to a sub-expression"
  | nothingToRepeatCounted => "counted repetition operator must be applied to a sub-expression"
  | countUnclosed => "found unclosed counted repetition operator"
  | countLeastUnclosed => "found incomplete and unclosed counted repetition operator"
  | countCommaUnclosed => "found counted repetition operator with a comma that is unclosed"
  | countMostUnclosed => "found counted repetition with min and max that is unclosed"
  | countInvalid => "expected closing brace for counted repetition, but got something else"
  | countOrder => "found counted repetition with a min bigger than its max"
  | classUnclosedAfterItem => "non-empty character class has no closing bracket"
  | classRangeEnds => "character class ranges must start and end with a single character"
  | classItem => "invalid escape sequence in character class"
  | classUnclosedAfterDash => "non-empty character class has no closing bracket after dash"
  | classUnclosedAfterNegation => "negated character class has no closing bracket"
  | classUnclosedAfterBracket =>
    "character class begins with literal ']' but has no closing bracket"
  | classRangeOrder => "invalid range in character class"
  | classUnclosed => "found unclosed character class"
  | classNested => "nested character classes are not supported"
  | classIntersection => "character class intersection is not supported"
  | classDifference => "character class difference is not supported"
  | classSymmetricDifference => "character class symmetric difference is not supported"
  | boundaryUnclosed => "special word boundary assertion is unclosed or has an invalid character"
  | boundaryUnknown => "special word boundary assertion is unrecognized"
  | boundaryEnd => "found start of special word boundary or repetition without an end"

namespace Pattern

/-- The flags that a pattern may switch on and off within itself. -/
structure Flags where
  ignoreCase : Bool
  multiLine : Bool
  dotMatchesAll : Bool
  anyLineEnd : Bool
  ignoreBlanks : Bool

def Flags.none : Flags := ⟨false, false, false, false, false⟩

/-! ## Blanks -/

def dropComment (s : List Char) : List Char := (s.dropWhile (· != '\n')).drop 1

def dropIgnoredUpTo : Nat → List Char → List Char
  | 0, s => s
  | _, [] => []
  | n + 1, c :: rest =>
    if Text.isBlankChar c then dropIgnoredUpTo n rest
    else if c = '#' then dropIgnoredUpTo n (dropComment rest)
    else c :: rest

/-- Drops blanks and comments where the flags say that they stand for nothing. -/
def dropIgnored (f : Flags) (s : List Char) : List Char :=
  if f.ignoreBlanks then dropIgnoredUpTo s.length s else s

/-! ## Single characters -/

def literal (f : Flags) (c : Char) : Pattern :=
  if f.ignoreCase && c.isAlpha then set (CharSet.one c).withOtherCase else char c

def dot (f : Flags) : Pattern :=
  let excluded : CharSet :=
    if f.dotMatchesAll then .empty
    else if f.anyLineEnd then .union [.one '\r', .one '\n']
    else .one '\n'
  set excluded.complement

def startAnchor (f : Flags) : Pattern :=
  look (if !f.multiLine then .textStart else if f.anyLineEnd then .anyLineStart else .lineStart)

def endAnchor (f : Flags) : Pattern :=
  look (if !f.multiLine then .textEnd else if f.anyLineEnd then .anyLineEnd else .lineEnd)

/-! ## Escapes -/

def classOf? (c : Char) : Option CharSet :=
  match c with
  | 'd' => some .digits
  | 'D' => some CharSet.digits.complement
  | 's' => some .spaces
  | 'S' => some CharSet.spaces.complement
  | 'w' => some .wordChars
  | 'W' => some CharSet.wordChars.complement
  | _ => none

def charOf? (n : Nat) : Option Char := if h : n.isValidChar then some (Char.ofNatAux n h) else none

def hexValue (ds : List Char) : Nat :=
  ds.foldl (fun n c => 16 * n + (Json.Token.hexDigit? c).getD 0) 0

/-- A character by hexadecimal digits in braces, before each of which something ignored may stand;
the opening brace has been read. -/
def hexInBraces (f : Flags) (digits : List Char) :
    (rounds : Nat) → List Char → Except PatternError (Pattern × List Char)
  | 0, _ => .error .hexBraceUnclosed
  | rounds + 1, s =>
    match dropIgnored f s with
    | [] => .error .hexBraceUnclosed
    | '\x7d' :: rest =>
      if digits.isEmpty then .error .hexBraceEmpty
      else
        match charOf? (hexValue digits.reverse) with
        | some c => .ok (literal f c, dropIgnored f rest)
        | none => .error .hexBraceInvalid
    | c :: rest =>
      if (Json.Token.hexDigit? c).isSome then hexInBraces f (c :: digits) rounds rest
      else .error .hexBraceDigit

def hexFixed (f : Flags) (digits : List Char) :
    Nat → List Char → Except PatternError (Pattern × List Char)
  | 0, s =>
    match charOf? (hexValue digits.reverse) with
    | some c => .ok (literal f c, s)
    | none => .error .hexFixedInvalid
  | n + 1, s =>
    match s with
    | [] => .error .hexFixedEnd
    | c :: rest =>
      if (Json.Token.hexDigit? c).isSome then hexFixed f (c :: digits) n (dropIgnored f rest)
      else .error .hexFixedDigit

def hexEscape (f : Flags) (count : Nat) (s : List Char) :
    Except PatternError (Pattern × List Char) :=
  match dropIgnored f s with
  | [] => .error .hexEnd
  | '\x7b' :: rest => hexInBraces f [] (rest.length + 1) rest
  | s => hexFixed f [] count s

def controlOf? (c : Char) : Option Char :=
  match c with
  | 'a' => some '\x07'
  | 'f' => some '\x0c'
  | 't' => some '\t'
  | 'n' => some '\n'
  | 'r' => some '\r'
  | 'v' => some '\x0b'
  | _ => none

def lookOf? (c : Char) : Option Look :=
  match c with
  | 'A' => some .textStart
  | 'z' => some .textEnd
  | 'B' => some .noWordBoundary
  | '<' => some .wordStart
  | '>' => some .wordEnd
  | _ => none

def isEscapable (c : Char) : Bool :=
  c.toNat < 0x80 && !c.isAlphanum && c != '<' && c != '>'

/-- The letters of the name of a word boundary, after each of which something ignored may stand, and
what follows them. -/
def boundaryName (f : Flags) (name : List Char) : (rounds : Nat) → List Char → List Char × List Char
  | rounds + 1, c :: rest =>
    if c.isAlpha || c = '-' then boundaryName f (c :: name) rounds (dropIgnored f rest)
    else (name.reverse, c :: rest)
  | _, s => (name.reverse, s)

/-- A word boundary, which may be told apart by a name in braces.  A brace that no name follows is
left for a repetition. -/
def wordBoundary (f : Flags) (s : List Char) : Except PatternError (Pattern × List Char) :=
  match s with
  | '\x7b' :: rest =>
    match dropIgnored f rest with
    | [] => .error .boundaryEnd
    | c :: more =>
      if c.isAlpha || c = '-' then
        match boundaryName f [] s.length (c :: more) with
        | (name, '\x7d' :: rest) =>
          if name = "start".toList then .ok (look .wordStart, rest)
          else if name = "end".toList then .ok (look .wordEnd, rest)
          else if name = "start-half".toList then .ok (look .wordStartHalf, rest)
          else if name = "end-half".toList then .ok (look .wordEndHalf, rest)
          else .error .boundaryUnknown
        | _ => .error .boundaryUnclosed
      else .ok (look .wordBoundary, s)
  | _ => .ok (look .wordBoundary, s)

def escape (f : Flags) : List Char → Except PatternError (Pattern × List Char)
  | [] => .error .escapeEnd
  | c :: rest =>
    if c.isDigit then .error .backreference
    else if c = 'p' ∨ c = 'P' then .error .unicodeClass
    else if c = 'x' then hexEscape f 2 rest
    else if c = 'u' then hexEscape f 4 rest
    else if c = 'U' then hexEscape f 8 rest
    else if c = 'b' then wordBoundary f rest
    else
      match classOf? c, controlOf? c, lookOf? c with
      | some s, _, _ => .ok (set s, rest)
      | _, some d, _ => .ok (literal f d, rest)
      | _, _, some l => .ok (look l, rest)
      | none, none, none =>
        if isEscapable c then .ok (literal f c, rest) else .error .unknownEscape

/-! ## Classes -/

def namedClass? (name : List Char) : Option CharSet :=
  let lower : CharSet := .between 'a' 'z'
  let upper : CharSet := .between 'A' 'Z'
  [ ("alnum", .union [.digits, upper, lower]),
    ("alpha", .union [upper, lower]),
    ("ascii", .between '\x00' '\x7f'),
    ("blank", .union [.one '\t', .one ' ']),
    ("cntrl", .union [.between '\x00' '\x1f', .one '\x7f']),
    ("digit", .digits),
    ("graph", .between '!' '~'),
    ("lower", lower),
    ("print", .between ' ' '~'),
    ("punct", .union [.between '!' '/', .between ':' '@', .between '[' (Char.ofNat 0x60),
      .between '\x7b' '~']),
    ("space", .spaces),
    ("upper", upper),
    ("word", .wordChars),
    ("xdigit", .union [.digits, .between 'A' 'F', .between 'a' 'f']) ].lookup (String.ofList name)

def bracketedName? : List Char → Option (CharSet × List Char)
  | ':' :: rest =>
    let (negated, body) := match rest with
      | '^' :: body => (true, body)
      | body => (false, body)
    match body.dropWhile (· != ':') with
    | ':' :: ']' :: tail =>
      (namedClass? (body.takeWhile (· != ':'))).map fun s =>
        (if negated then s.complement else s, tail)
    | _ => none
  | _ => none

/-- One item of a class: a character or an escape. -/
def classItem (f : Flags) : List Char → Except PatternError (Pattern × List Char)
  | '\\' :: rest => escape f rest
  | c :: rest => .ok (char c, rest)
  | [] => .error .classUnclosed

def itemSet : Pattern → Except PatternError CharSet
  | char c => .ok (.one c)
  | set s => .ok s
  | _ => .error .classItem

/-- The character that a class item is as the end of a range. -/
def rangeEnd : Pattern → Except PatternError Char
  | char c => .ok c
  | _ => .error .classRangeEnds

/-- The character that settles whether a dash in a class makes a range.  Blanks do not count where
they are ignored; of a comment only the mark at its start is passed over, and its text counts. -/
def afterDash (f : Flags) (s : List Char) : Option Char :=
  if f.ignoreBlanks then
    match Text.dropBlanks s with
    | '#' :: rest => (Text.dropBlanks rest).head?
    | s => s.head?
  else s.head?

def classRange (f : Flags) (s : List Char) : Except PatternError (CharSet × List Char) := do
  let (first, s) ← classItem f s
  let s := dropIgnored f s
  match s with
  | [] => .error .classUnclosedAfterItem
  | '-' :: rest =>
    if afterDash f rest = some ']' ∨ afterDash f rest = some '-' then return (← itemSet first, s)
    else
      match dropIgnored f rest with
      | [] => .error .classUnclosedAfterDash
      | rest => do
        let (last, s) ← classItem f rest
        let low ← rangeEnd first
        let high ← rangeEnd last
        if high < low then .error .classRangeOrder else return (.between low high, s)
  | _ => return (← itemSet first, s)

/-- The dashes at the start of a class, which stand for themselves. -/
def leadingDashes (f : Flags) :
    (rounds : Nat) → List CharSet → List Char → Except PatternError (List CharSet × List Char)
  | rounds + 1, sets, '-' :: rest =>
    match dropIgnored f rest with
    | [] => .error .classUnclosedAfterDash
    | s => leadingDashes f rounds (.one '-' :: sets) s
  | _, sets, s => .ok (sets, s)

def classItems (f : Flags) :
    (rounds : Nat) → List CharSet → List Char → Except PatternError (List CharSet × List Char)
  | 0, _, _ => .error .classUnclosed
  | rounds + 1, sets, s =>
    match dropIgnored f s with
    | [] => .error .classUnclosed
    | ']' :: rest => .ok (sets, rest)
    | '[' :: rest =>
      match bracketedName? rest with
      | some (named, rest) => classItems f rounds (named :: sets) rest
      | none => .error .classNested
    | '&' :: '&' :: _ => .error .classIntersection
    | '-' :: '-' :: _ => .error .classDifference
    | '~' :: '~' :: _ => .error .classSymmetricDifference
    | s => do
      let (item, rest) ← classRange f s
      classItems f rounds (item :: sets) rest

/-- A class after its opening bracket.  Letters get their other case before a negation counts. -/
def bracketClass (f : Flags) (s : List Char) : Except PatternError (Pattern × List Char) := do
  let s := dropIgnored f s
  if s.isEmpty then .error .classUnclosed
  else
    let (negated, s) ← match s with
      | '^' :: rest =>
        match dropIgnored f rest with
        | [] => .error .classUnclosedAfterNegation
        | s => .ok (true, s)
      | s => .ok (false, s)
    let (sets, s) ← leadingDashes f s.length [] s
    let (sets, s) ← match sets, s with
      | [], ']' :: rest =>
        match dropIgnored f rest with
        | [] => .error .classUnclosedAfterBracket
        | s => .ok ([.one ']'], s)
      | sets, s => .ok (sets, s)
    let (sets, s) ← classItems f (s.length + 1) sets s
    let union := CharSet.union sets
    let folded := if f.ignoreCase then union.withOtherCase else union
    return (set (if negated then folded.complement else folded), s)

/-! ## Repetitions -/

def decimal (f : Flags) (s : List Char) : Except PatternError (Nat × List Char) :=
  let (ds, s) := digits [] s.length (Text.dropBlanks s)
  let s := dropIgnored f (Text.dropBlanks s)
  if ds.isEmpty then .error .decimalMissing
  else if Binary64.digitsValue ds < 4294967296 then .ok (Binary64.digitsValue ds, s)
  else .error .decimalInvalid
where
  digits (ds : List Char) : Nat → List Char → List Char × List Char
    | rounds + 1, c :: rest =>
      if c.isDigit then digits (c :: ds) rounds (dropIgnored f rest) else (ds.reverse, c :: rest)
    | _, s => (ds.reverse, s)

/-- A question mark after a repetition, which changes only what a match would contain. -/
def dropLazy : List Char → List Char
  | '?' :: rest => rest
  | s => s

def counts (f : Flags) (s : List Char) : Except PatternError ((Nat × Option Nat) × List Char) := do
  let s := dropIgnored f s
  if s.isEmpty then .error .countUnclosed
  else
    let (least, s) ← decimal f s
    let (most, s) ← match s with
      | [] => .error .countLeastUnclosed
      | ',' :: rest =>
        match dropIgnored f rest with
        | [] => .error .countCommaUnclosed
        | '\x7d' :: rest => .ok (none, '\x7d' :: rest)
        | s => do
          let (most, s) ← decimal f s
          if s.isEmpty then .error .countMostUnclosed else .ok (some most, s)
      | s => .ok (some least, s)
    match s with
    | '\x7d' :: rest =>
      if most.any (· < least) then .error .countOrder
      else return ((least, most), dropLazy (dropIgnored f rest))
    | _ => .error .countInvalid

/-! ## Groups -/

def setFlag (f : Flags) (on : Bool) (c : Char) : Except PatternError Flags :=
  match c with
  | 'i' => .ok { f with ignoreCase := on }
  | 'm' => .ok { f with multiLine := on }
  | 's' => .ok { f with dotMatchesAll := on }
  | 'R' => .ok { f with anyLineEnd := on }
  | 'x' => .ok { f with ignoreBlanks := on }
  -- Greediness changes no occurrence, and matching is by Unicode characters in any case.
  | 'U' | 'u' => .ok f
  | _ => .error .unknownFlag

/-- A run of flags up to the colon or the parenthesis that ends it, which is not read. -/
def flagRun (f : Flags) (negated last : Bool) (seen : List Char) :
    List Char → Except PatternError (Flags × List Char)
  | [] => .error .unclosedFlags
  | c :: rest =>
    if c = ':' ∨ c = ')' then if last then .error .danglingFlagNegation else .ok (f, c :: rest)
    else if c = '-' then
      if negated then .error .repeatedFlagNegation else flagRun f true true seen rest
    else do
      let f ← setFlag f (!negated) c
      if seen.contains c then .error .duplicateFlag
      else flagRun f negated false (c :: seen) rest

/-- A character that the name of a group may hold; a letter or an underscore comes first. -/
def isNameChar (first : Bool) (c : Char) : Bool :=
  c = '_' || Text.isLetter c ||
    (!first && (c = '.' || c = '[' || c = ']' || Text.isNumeral c))

/-- The name of a group up to the bracket that ends it. -/
def groupName (name : List Char) : List Char → Except PatternError (List Char × List Char)
  | [] => .error (if name.isEmpty then .missingGroupName else .unclosedGroupName)
  | c :: rest =>
    if c = '>' then if name.isEmpty then .error .emptyGroupName else .ok (name.reverse, rest)
    else if isNameChar name.isEmpty c then groupName (c :: name) rest
    else .error .invalidGroupName

/-- A group that is still open: what stands before it, the flags around it, and what it is
remembered as, if it is. -/
structure OpenGroup where
  branches : List Pattern
  parts : List Pattern
  flags : Flags
  capture : Option Capture

/-- Where the reader stands: the branches and the parts of the current group, last first, the
groups around it, and the number of groups remembered so far with their names. -/
structure Progress where
  branches : List Pattern
  parts : List Pattern
  flags : Flags
  groups : List OpenGroup
  captures : Nat
  names : List (List Char)

def maxNesting : Nat := 50

namespace Progress

def start : Progress := ⟨[], [], Flags.none, [], 0, []⟩

def add (g : Progress) (p : Pattern) : Progress := { g with parts := p :: g.parts }

def current (g : Progress) : Pattern :=
  ofChoice (ofSequence g.parts.reverse :: g.branches).reverse

def openGroup (g : Progress) (capture : Option Capture) (inside : Flags) :
    Except PatternError Progress :=
  if maxNesting ≤ g.groups.length then .error .tooMuchNesting
  else .ok { g with
    branches := []
    parts := []
    flags := inside
    groups := ⟨g.branches, g.parts, g.flags, capture⟩ :: g.groups
    captures := g.captures + (if capture.isSome then 1 else 0) }

def openCapture (g : Progress) (name : Option String) : Except PatternError Progress :=
  g.openGroup (some ⟨g.captures + 1, name⟩) g.flags

/-- Closes a group. -/
def closeGroup (g : Progress) : Except PatternError Progress :=
  match g.groups with
  | [] => .error .unopenedGroup
  | o :: rest =>
    let p :=
      match o.capture with
      | some c => group c g.current
      | none => g.current
    .ok { g with branches := o.branches, parts := p :: o.parts, flags := o.flags, groups := rest }

def afterParenthesis (g : Progress) (s : List Char) : Except PatternError (Progress × List Char) :=
  match dropIgnored g.flags s with
  | '?' :: '=' :: _ | '?' :: '!' :: _ | '?' :: '<' :: '=' :: _ | '?' :: '<' :: '!' :: _ =>
    .error .lookAround
  | '?' :: 'P' :: '<' :: rest | '?' :: '<' :: rest => do
    let (name, rest) ← groupName [] rest
    if g.names.contains name then .error .duplicateGroupName
    else
      let g ← { g with names := name :: g.names }.openCapture (some (String.ofList name))
      return (g, rest)
  | '?' :: [] => .error .unclosedGroupOption
  | '?' :: s => do
    let (inside, rest) ← flagRun g.flags false false [] s
    match rest with
    | ')' :: rest =>
      if s.head? = some ')' then .error .emptyFlags else return ({ g with flags := inside }, rest)
    | ':' :: rest => return (← g.openGroup none inside, rest)
    | _ => .error .unclosedFlags
  | s => return (← g.openCapture none, s)

/-- Reads one piece of a pattern that starts with a given character. -/
def step (g : Progress) (c : Char) (rest : List Char) :
    Except PatternError (Progress × List Char) :=
  let f := g.flags
  match c with
  | '(' => g.afterParenthesis rest
  | ')' => return (← g.closeGroup, rest)
  | '|' =>
    return ({ g with branches := ofSequence g.parts.reverse :: g.branches, parts := [] }, rest)
  | '[' => do
    let (p, s) ← bracketClass f rest
    return (g.add p, s)
  | '?' | '*' | '+' =>
    match g.parts with
    | [] => .error .nothingToRepeat
    | p :: parts =>
      let q := ofRepetition p (if c = '+' then 1 else 0) (if c = '?' then some 1 else none)
      return ({ g with parts := q :: parts }, dropLazy rest)
  | '\x7b' =>
    match g.parts with
    | [] => .error .nothingToRepeatCounted
    | p :: parts => do
      let ((least, most), s) ← counts f rest
      return ({ g with parts := ofRepetition p least most :: parts }, s)
  | '\\' => do
    let (p, s) ← escape f rest
    return (g.add p, s)
  | '.' => return (g.add (dot f), rest)
  | '^' => return (g.add (startAnchor f), rest)
  | '$' => return (g.add (endAnchor f), rest)
  | c => return (g.add (literal f c), rest)

def run : (rounds : Nat) → Progress → List Char → Except PatternError Pattern
  | 0, g, _ => finish g
  | rounds + 1, g, s =>
    match dropIgnored g.flags s with
    | [] => finish g
    | c :: rest => do
      let (g, s) ← g.step c rest
      run rounds g s
where
  finish (g : Progress) : Except PatternError Pattern :=
    if g.groups.isEmpty then .ok g.current else .error .unclosedGroup

end Progress

def parse (s : String) : Except PatternError Pattern := do
  let cs := s.toList
  let p ← Progress.start.run (cs.length + 1) cs
  if !p.nestsWithin maxNesting then .error .tooMuchNesting
  else if maxSize < p.totalSize then .error .tooLarge
  else return p

end Pattern
end RecordRules
