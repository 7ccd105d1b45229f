import Automation.Json.Place
import Automation.Text.Hex
import Automation.Value

/-!
JSON text as read.

A `Tree` is what a text spells, in the order of the text: members keep their order and repeated keys
stay.  Reading never fails as a whole.  Where the text goes wrong the tree ends in a `Fault`, so that
whoever takes the tree apart meets what comes before it first.  A fault has two readings, since a
value that is wanted and one that is skipped are not held to the same rules.  Each part knows its
span, from which the place of a complaint about it is taken.
-/

namespace Automation.Json

inductive SyntaxError where
  | eofInValue
  | eofInList
  | eofInObject
  | eofInString
  | expectedValue
  | expectedIdent
  | expectedColon
  | expectedListCommaOrEnd
  | expectedObjectCommaOrEnd
  | keyNotString
  | trailingComma
  | trailingCharacters
  | invalidEscape
  | invalidNumber
  | numberOutOfRange
  | loneSurrogate
  | endOfHexEscape
  | controlCharacter
  | recursionLimit
deriving DecidableEq

namespace SyntaxError

def message : SyntaxError → String
  | eofInValue => "EOF while parsing a value"
  | eofInList => "EOF while parsing a list"
  | eofInObject => "EOF while parsing an object"
  | eofInString => "EOF while parsing a string"
  | expectedValue => "expected value"
  | expectedIdent => "expected ident"
  | expectedColon => "expected `:`"
  | expectedListCommaOrEnd => "expected `,` or `]`"
  | expectedObjectCommaOrEnd => "expected `,` or `\x7d`"
  | keyNotString => "key must be a string"
  | trailingComma => "trailing comma"
  | trailingCharacters => "trailing characters"
  | invalidEscape => "invalid escape"
  | invalidNumber => "invalid number"
  | numberOutOfRange => "number out of range"
  | loneSurrogate => "lone leading surrogate in hex escape"
  | endOfHexEscape => "unexpected end of hex escape"
  | controlCharacter => "control character (\\u0000-\\u001F) found while parsing a string"
  | recursionLimit => "recursion limit exceeded"

end SyntaxError

structure Misspelling where
  error : SyntaxError
  place : Place
deriving DecidableEq

/-- Where a text goes wrong: what is said when the value is wanted and when it is skipped. -/
structure Fault where
  wanted : Misspelling
  skipped : Misspelling
deriving DecidableEq

def Fault.both (e : SyntaxError) (p : Place) : Fault := ⟨⟨e, p⟩, ⟨e, p⟩⟩

def Fault.numberCut (rest : List Char) : Fault :=
  ⟨⟨if rest.isEmpty then .eofInValue else .invalidNumber, .peeking rest⟩,
    ⟨.invalidNumber, .peeking rest⟩⟩

inductive Ending where
  | closed
  /-- The text ends where a comma or the closing bracket has to follow. -/
  | unfinished
  /-- Something else stands where a comma or the closing bracket has to follow. -/
  | unseparated
  /-- The closing bracket follows a comma. -/
  | danglingComma
  /-- The text ends after a comma. -/
  | cutAfterComma
  /-- Something else stands where a key has to follow. -/
  | badKey
deriving DecidableEq

/-- The key of a member and what follows it.  It is no text where an escape in it stands for no
character. -/
structure Key where
  text : Except Misspelling String
  after : List Char

/-- What a text spells.  The content of a string is an error where an escape in it stands for no
character; a number beyond the greatest double is none, and its span goes to where that was found.
The span of a list or an object goes through the closing bracket, or to where something else stands
in place of one. -/
inductive Tree where
  | null (span : Span)
  | bool (b : Bool) (span : Span)
  | number (n : Option Number) (span : Span)
  | string (content : Except Misspelling String) (span : Span)
  | list (items : List Tree) (ending : Ending) (span : Span)
  | object (members : List (Key × Tree)) (ending : Ending) (span : Span)
  | fault (f : Fault) (start : List Char)

instance : Inhabited Tree := ⟨.null .none⟩

def Tree.start : Tree → List Char
  | .null span | .bool _ span | .number _ span | .string _ span => span.start
  | .list _ _ span | .object _ _ span => span.start
  | .fault _ start => start

def isSpace (c : Char) : Bool := c = ' ' || c = '\n' || c = '\t' || c = '\r'

def skipSpace (s : List Char) : List Char := s.dropWhile isSpace

abbrev Read (α : Type) := α × Option (List Char)

/-- A word that has to follow, such as the end of `null`.  `start` is where the first word started. -/
def readWord (found : Span → Tree) (start : List Char) : (word : List Char) → List Char → Read Tree
  | [], s => (found ⟨start, s⟩, some s)
  | _ :: _, [] => (.fault (.both .eofInValue (.before [])) start, none)
  | w :: ws, c :: s =>
    if w = c then readWord found start ws s
    else (.fault (.both .expectedIdent (.peeking (c :: s))) start, none)

/-! ## Numbers -/

/-- The greatest exponent that is counted. -/
def exponentLimit : Nat := 2147483647

/-- What is left of the digits of an exponent, the value of those before them being `n`, when the
exponent is found to be too great, or after all digits. -/
def afterExponent (n : Nat) : List Char → List Char
  | c :: s =>
    if c.isDigit then
      let n := 10 * n + (c.toNat - '0'.toNat)
      if exponentLimit < n then s else afterExponent n s
    else c :: s
  | [] => []

/-- A number between two places; one that is out of range is so at `limit`. -/
def numberTree (n : Option Number) (start rest limit : List Char) : Read Tree :=
  (.number n ⟨start, if n.isSome then rest else limit⟩, some rest)

def readExponent (number? : Int → Option Number) (start s : List Char) : Read Tree :=
  let (negative, s) := match s with
    | '-' :: r => (true, r)
    | '+' :: r => (false, r)
    | _ => (false, s)
  let digits := s.takeWhile Char.isDigit
  let rest := s.dropWhile Char.isDigit
  if digits.isEmpty then (.fault (.numberCut rest) start, none)
  else
    let n : Int := Nat.ofDigitChars 10 digits 0
    numberTree (number? (if negative then -n else n)) start rest (afterExponent 0 s)

def readNumber (negative : Bool) (start s : List Char) : Read Tree :=
  let whole := s.takeWhile Char.isDigit
  let rest := s.dropWhile Char.isDigit
  if whole.isEmpty then (.fault (.numberCut rest) start, none)
  else if whole.head? = some '0' ∧ 1 < whole.length then
    (.fault (.both .invalidNumber (.peeking (s.drop 1))) start, none)
  else
    let after (fraction : Option (List Char)) (s : List Char) : Read Tree :=
      let plain := numberTree (Number.ofParts? negative whole fraction none) start s s
      match s with
      | c :: r =>
        if c = 'e' ∨ c = 'E' then
          readExponent (fun e => Number.ofParts? negative whole fraction (some e)) start r
        else plain
      | [] => plain
    match rest with
    | '.' :: r =>
      let fraction := r.takeWhile Char.isDigit
      let rest := r.dropWhile Char.isDigit
      if fraction.isEmpty then (.fault (.numberCut rest) start, none)
      else after (some fraction) rest
    | _ => after none rest

/-! ## Strings -/

/-- The number that the four hexadecimal digits at the start of a text spell.  Whether a text is
long enough for four digits is counted in bytes. -/
def hexUnit? (s : List Char) : Except Misspelling Nat :=
  match s.take 4 |>.mapM Hex.value? with
  | some [a, b, c, d] => .ok (((a * 16 + b) * 16 + c) * 16 + d)
  | _ =>
    if (String.ofList s).utf8ByteSize < 4 then .error ⟨.eofInString, .before []⟩
    else .error ⟨.invalidEscape, ⟨s, 4⟩⟩

def isLeading (n : Nat) : Bool := 0xD800 ≤ n && n ≤ 0xDBFF

def isTrailing (n : Nat) : Bool := 0xDC00 ≤ n && n ≤ 0xDFFF

/-- What a leading surrogate and the text after it stand for: the character of the pair, nothing yet
where the text after it is at fault itself, or why it stands alone. -/
def pairedWith (lead : Nat) : List Char → Except Misspelling (Option Char)
  | '\\' :: 'u' :: r =>
    match hexUnit? r with
    | .error _ => .ok none
    | .ok trail =>
      if isTrailing trail then
        .ok (some (.ofNat ((lead - 0xD800) * 0x400 + (trail - 0xDC00) + 0x10000)))
      else .error ⟨.loneSurrogate, .before (r.drop 4)⟩
  | [] => .ok none
  | ['\\'] => .ok none
  | '\\' :: r => .error ⟨.endOfHexEscape, .peeking r⟩
  | r => .error ⟨.endOfHexEscape, .peeking r⟩

def shortEscape? (c : Char) : Option Char :=
  if c = '"' ∨ c = '\\' ∨ c = '/' then some c
  else if c = 'b' then some '\x08'
  else if c = 'f' then some '\x0c'
  else if c = 'n' then some '\n'
  else if c = 'r' then some '\r'
  else if c = 't' then some '\t'
  else none

/-- A string read to its closing quote: its content, unless an escape in it stands for no character,
or the fault that cuts it. -/
inductive StringRead where
  | closed (content : Except Misspelling String) (rest : List Char)
  | cut (f : Fault)

/-- Reads a string after its opening quote.  `content` holds the characters so far in reverse, or the
first error among the escapes; `skip` is how many characters of an escape are still to be passed
over. -/
def readString (content : Except Misspelling (List Char)) : (skip : Nat) → List Char → StringRead
  | _, [] => cutAt .eofInString (.before [])
  | skip + 1, _ :: s => readString content skip s
  | 0, c :: s =>
    if c = '"' then .closed (content.map fun cs => .ofList cs.reverse) s
    else if c = '\\' then
      match s with
      | [] => cutAt .eofInString (.before [])
      | e :: r =>
        if e = 'u' then
          match hexUnit? r with
          | .error x => cutAt x.error x.place
          | .ok n =>
            if isTrailing n then
              readString (content.bind fun _ => .error ⟨.loneSurrogate, .before (r.drop 4)⟩) 5 s
            else if isLeading n then
              match content.bind fun _ => pairedWith n (r.drop 4) with
              | .ok (some paired) => readString (content.map (paired :: ·)) 11 s
              | .ok none => readString content 5 s
              | .error x => readString (.error x) 5 s
            else readString (content.map (.ofNat n :: ·)) 5 s
        else
          match shortEscape? e with
          | some x => readString (content.map (x :: ·)) 1 s
          | none => cutAt .invalidEscape (.peeking s)
    else if c.toNat < 0x20 then
      -- Whoever wants the string takes the character before looking at it.
      .cut ⟨wanted ⟨.controlCharacter, .peeking (c :: s)⟩, ⟨.controlCharacter, .before (c :: s)⟩⟩
    else readString (content.map (c :: ·)) 0 s
where
  /-- The error among the escapes, if any, comes first for whoever wants the string. -/
  wanted (e : Misspelling) : Misspelling :=
    match content with
    | .ok _ => e
    | .error first => first
  cutAt (e : SyntaxError) (p : Place) : StringRead := .cut ⟨wanted ⟨e, p⟩, ⟨e, p⟩⟩

/-! ## Values -/

mutual

/-- Reads a value.  `fuel` bounds the depth of calls; two for each character of the text and two more
are enough. -/
def readValue : (fuel : Nat) → List Char → Read Tree
  | 0, s => (.fault (.both .eofInValue (.before [])) s, none)
  | fuel + 1, s =>
    let s := skipSpace s
    match s with
    | [] => (.fault (.both .eofInValue (.before [])) s, none)
    | c :: r =>
      if c = 'n' then readWord .null s ['u', 'l', 'l'] r
      else if c = 't' then readWord (.bool true) s ['r', 'u', 'e'] r
      else if c = 'f' then readWord (.bool false) s ['a', 'l', 's', 'e'] r
      else if c = '-' then readNumber true s r
      else if c.isDigit then readNumber false s s
      else if c = '"' then
        match readString (.ok []) 0 r with
        | .closed content rest => (.string content ⟨s, rest⟩, some rest)
        | .cut f => (.fault f s, none)
      else if c = '[' then
        match skipSpace r with
        | [] => (.list [] .unfinished ⟨s, []⟩, none)
        | e :: rest =>
          if e = ']' then (.list [] .closed ⟨s, rest⟩, some rest)
          else
            let ((items, ending, after), rest) := readItems fuel r
            (.list items ending ⟨s, after⟩, rest)
      else if c = '{' then
        match skipSpace r with
        | [] => (.object [] .unfinished ⟨s, []⟩, none)
        | e :: rest =>
          if e = '}' then (.object [] .closed ⟨s, rest⟩, some rest)
          else
            let ((members, ending, after), rest) := readMembers fuel r
            (.object members ending ⟨s, after⟩, rest)
      else (.fault (.both .expectedValue (.peeking s)) s, none)

/-- Reads the items of a list from one of them on, through the closing bracket: the items, how they
end, and what is left there. -/
def readItems : (fuel : Nat) → List Char → Read (List Tree × Ending × List Char)
  | 0, s => (([], .unfinished, s), none)
  | fuel + 1, s =>
    match readValue fuel s with
    | (item, none) => (([item], .closed, []), none)
    | (item, some rest) =>
      match skipSpace rest with
      | [] => (([item], .unfinished, []), none)
      | c :: rest =>
        if c = ']' then (([item], .closed, rest), some rest)
        else if c = ',' then
          match skipSpace rest with
          | [] => (([item], .cutAfterComma, []), none)
          | e :: tail =>
            if e = ']' then (([item], .danglingComma, e :: tail), none)
            else
              let ((items, ending, after), rest) := readItems fuel rest
              ((item :: items, ending, after), rest)
        else (([item], .unseparated, c :: rest), none)

def readMembers : (fuel : Nat) → List Char → Read (List (Key × Tree) × Ending × List Char)
  | 0, s => (([], .unfinished, s), none)
  | fuel + 1, s =>
    match skipSpace s with
    | '"' :: r =>
      match readString (.ok []) 0 r with
      | .cut f => (([(⟨.error f.wanted, []⟩, .fault f r)], .closed, []), none)
      | .closed content rest =>
        let key : Key := ⟨content, rest⟩
        match skipSpace rest with
        | [] => (([(key, .fault (.both .eofInObject (.before [])) [])], .closed, []), none)
        | ':' :: rest =>
          match readValue fuel rest with
          | (value, none) => (([(key, value)], .closed, []), none)
          | (value, some rest) =>
            match skipSpace rest with
            | [] => (([(key, value)], .unfinished, []), none)
            | c :: rest =>
              if c = '}' then (([(key, value)], .closed, rest), some rest)
              else if c = ',' then
                match skipSpace rest with
                | [] => (([(key, value)], .cutAfterComma, []), none)
                | e :: tail =>
                  if e = '}' then (([(key, value)], .danglingComma, e :: tail), none)
                  else
                    let ((members, ending, after), rest) := readMembers fuel rest
                    (((key, value) :: members, ending, after), rest)
              else (([(key, value)], .unseparated, c :: rest), none)
        | rest => (([(key, .fault (.both .expectedColon (.peeking rest)) rest)], .closed, []), none)
    | rest => (([], .badKey, rest), none)

end

/-- A whole text: the value it spells, and what follows it besides blanks. -/
structure Document where
  tree : Tree
  trailing : List Char

def Document.ofText (s : List Char) : Document :=
  match readValue (2 * s.length + 2) s with
  | (tree, none) => ⟨tree, []⟩
  | (tree, some rest) => ⟨tree, skipSpace rest⟩

mutual

def Tree.ofValue : Value → Tree
  | .null => .null .none
  | .bool b => .bool b .none
  | .number n => .number (some n) .none
  | .string s => .string (.ok s) .none
  | .array items => .list (treesOfItems items) .closed .none
  | .object members => .object (treesOfMembers members) .closed .none

def treesOfItems : List Value → List Tree
  | [] => []
  | v :: r => Tree.ofValue v :: treesOfItems r

def treesOfMembers : List (String × Value) → List (Key × Tree)
  | [] => []
  | (k, v) :: r => (⟨.ok k, []⟩, Tree.ofValue v) :: treesOfMembers r

end

end Automation.Json
