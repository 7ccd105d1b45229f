import Automation.Json.Tree
import Automation.Json.Printer
import Automation.Text.Quoted

/-!
Typed decoding.

A `Decoder` takes a tree apart in the order in which it was read, so the first problem in that order
is the one reported, together with its place.  The same decoder serves a value and a text: `ofValue`
decodes a value through its tree, `ofText` a text, where in addition containers may nest only so
deep, a key of a record may come twice, and blanks alone may follow.

A record is described by its `Layout`: the keys in declaration order, how the value under each is
decoded, and what stands for one that is absent.  It may also be written as the list of its values in
that order.
-/

namespace Automation.Json

inductive Found where
  | null
  | bool (b : Bool)
  | number (n : Number)
  | string (s : String)
  | list
  | object

def numberFound : Number → List Char
  | .integer n _ => "integer `".toList ++ Number.intText n ++ ['`']
  | n => "floating point `".toList ++ n.json ++ ['`']

def Found.describe : Found → List Char
  | .null => "null".toList
  | .bool b => "boolean `".toList ++ (toString b).toList ++ ['`']
  | .number n => numberFound n
  | .string s => "string ".toList ++ Text.quoted s.toList
  | .list => "sequence".toList
  | .object => "map".toList

inductive DecodeError where
  | badSyntax (e : SyntaxError)
  | wrongType (found : Found) (expected : String)
  | wrongValue (found : Found) (expected : String)
  | missingField (key : String)
  | duplicateField (key : String)
  | unknownVariant (name : String) (expected : List String)
  | wrongLength (length : Nat) (expected : String)
  | notSingleKey
  | custom (message : String)

def listVariants : List String → String
  | [] => "there are no variants"
  | [a] => "expected `" ++ a ++ "`"
  | [a, b] => "expected `" ++ a ++ "` or `" ++ b ++ "`"
  | names => "expected one of " ++ ", ".intercalate (names.map fun a => "`" ++ a ++ "`")

def DecodeError.message : DecodeError → String
  | .badSyntax e => e.message
  | .wrongType found expected =>
    "invalid type: " ++ .ofList found.describe ++ ", expected " ++ expected
  | .wrongValue found expected =>
    "invalid value: " ++ .ofList found.describe ++ ", expected " ++ expected
  | .missingField key => "missing field `" ++ key ++ "`"
  | .duplicateField key => "duplicate field `" ++ key ++ "`"
  | .unknownVariant name expected =>
    "unknown variant `" ++ name ++ "`, " ++ listVariants expected
  | .wrongLength length expected =>
    "invalid length " ++ toString length ++ ", expected " ++ expected
  | .notSingleKey => "invalid value: map, expected map with a single key"
  | .custom message => message

structure Misfit where
  cause : DecodeError
  place : Place

namespace Misfit

def ofSyntax (m : Misspelling) : Misfit := ⟨.badSyntax m.error, m.place⟩

/-- A syntax error found by looking at the next byte. -/
def peeking (e : SyntaxError) (rest : List Char) : Misfit := ⟨.badSyntax e, .peeking rest⟩

def upTo (e : DecodeError) (rest : List Char) : Misfit := ⟨e, .before rest⟩

end Misfit

/-- How a tree is read: whether it comes from a text, and how many containers are open. -/
structure Reading where
  fromText : Bool
  depth : Nat

/-- How many containers a text may not open inside one another. -/
def depthLimit : Nat := 128

def Reading.enter (r : Reading) (span : Span) : Except Misfit Reading :=
  if r.fromText ∧ depthLimit ≤ r.depth + 1 then .error (.peeking .recursionLimit span.start)
  else .ok { r with depth := r.depth + 1 }

abbrev Decoder (α : Type) := Reading → Tree → Except Misfit α

/-! ## Endings and faults -/

namespace Ending

def itemsError? : Ending → Option SyntaxError
  | closed => none
  | unfinished => some .eofInList
  | unseparated => some .expectedListCommaOrEnd
  | danglingComma => some .trailingComma
  | cutAfterComma => some .eofInValue
  | badKey => some .expectedValue

/-- Why a list does not end well of which no more items were wanted. -/
def tupleError? : Ending → Option SyntaxError
  | closed => none
  | unfinished => some .eofInList
  | danglingComma => some .trailingComma
  | _ => some .trailingCharacters

def membersError? : Ending → Option SyntaxError
  | closed => none
  | unfinished => some .eofInObject
  | unseparated => some .expectedObjectCommaOrEnd
  | danglingComma => some .trailingComma
  | cutAfterComma => some .eofInValue
  | badKey => some .keyNotString

/-- Why a list that is skipped does not end well. -/
def skippedItemsError? : Ending → Option SyntaxError
  | danglingComma => some .expectedValue
  | e => e.itemsError?

def skippedMembersError? : Ending → Option SyntaxError
  | danglingComma => some .keyNotString
  | cutAfterComma => some .eofInObject
  | e => e.membersError?

end Ending

def ends (e : Option SyntaxError) (span : Span) : Except Misfit Unit :=
  match e with
  | none => .ok ()
  | some e => .error (.peeking e span.after)

mutual

/-- Passes over a value that nobody wants: only its syntax counts. -/
def skip : Tree → Except Misfit Unit
  | .fault f _ => .error (.ofSyntax f.skipped)
  | .list items ending span => do
    skipItems items
    ends ending.skippedItemsError? span
  | .object members ending span => do
    skipMembers members
    ends ending.skippedMembersError? span
  | _ => .ok ()

def skipItems : List Tree → Except Misfit Unit
  | [] => .ok ()
  | t :: r => do skip t; skipItems r

def skipMembers : List (Key × Tree) → Except Misfit Unit
  | [] => .ok ()
  | (_, t) :: r => do skip t; skipMembers r

end

def keyText (key : Key) : Except Misfit String := key.text.mapError .ofSyntax

/-! ## Scalars -/

/-- Says what a tree is that was expected to be something else.  A scalar has been passed by then; a
list or an object has not. -/
def mismatch {α : Type} (expected : String) : Tree → Except Misfit α
  | .null span => .error (.upTo (.wrongType .null expected) span.after)
  | .bool b span => .error (.upTo (.wrongType (.bool b) expected) span.after)
  | .number none span => .error (.upTo (.badSyntax .numberOutOfRange) span.after)
  | .number (some n) span => .error (.upTo (.wrongType (.number n) expected) span.after)
  | .string (.ok s) span => .error (.upTo (.wrongType (.string s) expected) span.after)
  | .string (.error e) _ => .error (.ofSyntax e)
  | .list _ _ span => .error (.upTo (.wrongType .list expected) span.start)
  | .object _ _ span => .error (.upTo (.wrongType .object expected) span.start)
  | .fault f _ => .error (.ofSyntax f.wanted)

namespace Decoder

/-- A text that stands for something: `read` says what, or why for nothing. -/
def textWith {α : Type} (expected : String) (read : String → Except DecodeError α) : Decoder α
  | _, .string (.ok s) span => (read s).mapError fun e => .upTo e span.after
  | _, t => mismatch expected t

def text : Decoder String := textWith "a string" .ok

def bool : Decoder Bool
  | _, .bool b _ => .ok b
  | _, t => mismatch "a boolean" t

def float (f : FloatFormat) (expected : String) : Decoder (Binary f)
  | _, .number (some n) _ => .ok (n.toBinary f)
  | _, t => mismatch expected t

def double : Decoder Double
  | _, .number (some n) _ => .ok n.toDouble
  | _, t => mismatch "f64" t

def single : Decoder Single := float .single "f32"

def natBelow (bound : Nat) (expected : String) : Decoder Nat
  | _, .number (some (.integer n h)) span =>
    if 0 ≤ n ∧ n < bound then .ok n.toNat
    else .error (.upTo (.wrongValue (.number (.integer n h)) expected) span.after)
  | _, t => mismatch expected t

def u16 : Decoder Nat := natBelow UInt16.size "u16"

def u32 : Decoder Nat := natBelow UInt32.size "u32"

def u64 : Decoder Nat := natBelow UInt64.size "u64"

def option {α : Type} (d : Decoder α) : Decoder (Option α)
  | _, .null _ => .ok none
  | r, t => (d r t).map some

def unit : Decoder Unit
  | _, .null _ => .ok ()
  | _, t => mismatch "unit" t

def refine {α β : Type} (d : Decoder α) (read : α → Except DecodeError β) : Decoder β :=
  fun r t => do (read (← d r t)).mapError fun e => .upTo e t.start

/-! ## Containers -/

def list {α : Type} (d : Decoder α) : Decoder (List α)
  | r, .list items ending span => do
    let r ← r.enter span
    let xs ← items.mapM (d r)
    ends ending.itemsError? span
    pure xs
  | _, t => mismatch "a sequence" t

def members {α : Type} (d : Decoder α) : Decoder (List (String × α))
  | r, .object ms ending span => do
    let r ← r.enter span
    let xs ← ms.mapM fun (key, t) => do
      let key ← keyText key
      pure (key, ← d r t)
    ends ending.membersError? span
    pure xs
  | _, t => mismatch "a map" t

mutual

def any (r : Reading) : Tree → Except Misfit Value
  | .null _ => .ok .null
  | .bool b _ => .ok (.bool b)
  | .number none span => .error (.upTo (.badSyntax .numberOutOfRange) span.after)
  | .number (some n) _ => .ok (.number n)
  | .string (.ok s) _ => .ok (.string s)
  | .string (.error e) _ => .error (.ofSyntax e)
  | .fault f _ => .error (.ofSyntax f.wanted)
  | .list items ending span => do
    let r ← r.enter span
    let xs ← anyItems r items
    ends ending.itemsError? span
    pure (.array xs)
  | .object ms ending span => do
    let r ← r.enter span
    let xs ← anyMembers r ms
    ends ending.membersError? span
    pure (.object (Keyed.ofList xs))

def anyItems (r : Reading) : List Tree → Except Misfit (List Value)
  | [] => .ok []
  | t :: ts => do
    let x ← any r t
    pure (x :: (← anyItems r ts))

def anyMembers (r : Reading) : List (Key × Tree) → Except Misfit (List (String × Value))
  | [] => .ok []
  | (key, t) :: ts => do
    let key ← keyText key
    let x ← any r t
    pure ((key, x) :: (← anyMembers r ts))

end

/-- An object of any values; of two members under one key the later counts. -/
def record : Decoder Record := fun r t => (members any r t).map Keyed.ofList

/-! ## Named variants -/

/-- One of several names, each of which stands for a value; with `other`, any other name stands for
that.  A name may also be the only key of an object that holds null. -/
def variant {α : Type} (names : List (String × α)) (other : Option α) : Decoder α :=
  fun r t =>
    let named (name : String) (after : List Char) : Except Misfit α :=
      match names.lookup name, other with
      | some x, _ => .ok x
      | none, some x => .ok x
      | none, none => .error (.upTo (.unknownVariant name (names.map Prod.fst)) after)
    match t with
    | .string (.ok name) span => named name span.after
    | .string (.error e) _ => .error (.ofSyntax e)
    | .object ((key, payload) :: rest) ending span => do
      let r ← r.enter span
      if !r.fromText && !rest.isEmpty then .error (.upTo .notSingleKey span.after)
      let x ← named (← keyText key) key.after
      unit r payload
      match ending, rest with
      | .closed, [] => pure x
      | .unfinished, [] => .error (.upTo (.badSyntax .eofInObject) [])
      | _, _ => .error (.upTo (.badSyntax .expectedValue) (skipSpace (afterTree payload)))
    | .object [] ending span =>
      if r.fromText then do
        discard (r.enter span)
        match ending with
        | .unfinished => .error (.peeking .eofInValue [])
        | .badKey => variantName (readValue (2 * span.after.length + 2) span.after).1
        | _ => .error (.peeking .expectedValue (skipSpace (span.start.drop 1)))
      else .error (.upTo .notSingleKey span.after)
    | .fault f _ => .error (.ofSyntax f.wanted)
    | t =>
      if r.fromText then .error (.peeking .expectedValue t.start) else mismatch "string or map" t
where
  /-- What follows a scalar. -/
  afterTree : Tree → List Char
    | .null span => span.after
    | t => t.start
  /-- Says what stands in place of a name. -/
  variantName (t : Tree) : Except Misfit α := mismatch "variant identifier" t

end Decoder

/-! ## Records -/

/-- The fields of a record in declaration order.  `σ` holds what has been read so far, a slot for
each field, and `ρ` the values in the end. -/
structure Layout (σ ρ : Type) where
  size : Nat
  start : σ
  /-- Reads a member into the slot of its key, if the key is one of the record's.  The text is what
  follows the key. -/
  byKey : Reading → String → List Char → Tree → σ → Option (Except Misfit σ)
  /-- Reads an item of a list into the slot of its position, if there is one. -/
  byPosition : Reading → Nat → Tree → σ → Option (Except Misfit σ)
  /-- The values, with the error for a field that is absent and has no default. -/
  finish : (absent : Nat → String → DecodeError) → σ → Except DecodeError ρ

namespace Layout

def nil : Layout Unit Unit where
  size := 0
  start := ()
  byKey _ _ _ _ _ := none
  byPosition _ _ _ _ := none
  finish _ _ := .ok ()

/-- Where a record is left of which a key comes twice: the end of the object is looked for. -/
def afterKey (after : List Char) : List Char :=
  match skipSpace after with
  | '}' :: rest => rest
  | rest => rest

def field {α σ ρ : Type} (key : String) (d : Decoder α) (default? : Option α) (rest : Layout σ ρ) :
    Layout (Option α × σ) (α × ρ) where
  size := rest.size + 1
  start := (none, rest.start)
  byKey r k after t := fun (slot, others) =>
    if k = key then
      some (if slot.isSome then .error (.upTo (.duplicateField key) (afterKey after))
        else (d r t).map fun x => (some x, others))
    else (rest.byKey r k after t others).map fun e => e.map fun others => (slot, others)
  byPosition r i t := fun (slot, others) =>
    match i with
    | 0 => some ((d r t).map fun x => (some x, others))
    | i + 1 => (rest.byPosition r i t others).map fun e => e.map fun others => (slot, others)
  finish absent := fun (slot, others) => do
    let x ← match slot, default? with
      | some x, _ => .ok x
      | none, some x => .ok x
      | none, none => .error (absent 0 key)
    let values ← rest.finish (fun i => absent (i + 1)) others
    pure (x, values)

abbrev required {α σ ρ : Type} (key : String) (d : Decoder α) (rest : Layout σ ρ) :=
  rest.field key d none

abbrev optional {α σ ρ : Type} (key : String) (d : Decoder α) (default : α) (rest : Layout σ ρ) :=
  rest.field key d (some default)

variable {σ ρ : Type}

/-- Reads the members of an object in order; unknown keys are passed over. -/
def readMembers (l : Layout σ ρ) (r : Reading) : List (Key × Tree) → σ → Except Misfit σ
  | [], s => .ok s
  | (key, t) :: rest, s => do
    match l.byKey r (← keyText key) key.after t s with
    | some e => l.readMembers r rest (← e)
    | none => do
      skip t
      l.readMembers r rest s

/-- Reads the items of a list into the slots from position `i` on, and gives what is left over. -/
def readItems (l : Layout σ ρ) (r : Reading) (i : Nat) :
    List Tree → σ → Except Misfit (σ × List Tree)
  | [], s => .ok (s, [])
  | t :: rest, s =>
    match l.byPosition r i t s with
    | some e => do l.readItems r (i + 1) rest (← e)
    | none => .ok (s, t :: rest)

def describe (l : Layout σ ρ) (name : String) : String :=
  "struct " ++ name ++ " with " ++ toString l.size ++
    (if l.size = 1 then " element" else " elements")

/-- A record as an object by key, or as the list of its values. -/
def decoder {α : Type} (name : String) (l : Layout σ ρ) (make : ρ → α) : Decoder α
  | r, .object members ending span => do
    let r ← r.enter span
    let s ← l.readMembers r members l.start
    ends ending.membersError? span
    let values ← (l.finish (fun _ key => .missingField key) s).mapError fun e => .upTo e span.after
    pure (make values)
  | r, .list items ending span => do
    let r ← r.enter span
    let (s, left) ← l.readItems r 0 items l.start
    -- An item that is still wanted meets the end of the list before the record is found too short.
    if left.isEmpty ∧ items.length < l.size then ends ending.itemsError? span
    let values ← (l.finish (fun i _ => .wrongLength i (l.describe name)) s).mapError fun e =>
      .upTo e span.after
    match left with
    | [] => ends ending.tupleError? span
    | t :: _ =>
      if r.fromText then .error (.peeking .trailingCharacters t.start)
      else .error (.upTo (.wrongLength items.length "fewer elements in array") span.after)
    pure (make values)
  | _, t => mismatch ("struct " ++ name) t

end Layout

/-! ## Decoding as a whole -/

structure TextError where
  cause : DecodeError
  location : Location

def TextError.message (e : TextError) : String := e.cause.message ++ " at " ++ e.location.text

namespace Decoder

variable {α : Type}

def ofValue (d : Decoder α) (v : Value) : Except DecodeError α :=
  (d ⟨false, 0⟩ (.ofValue v)).mapError Misfit.cause

def ofDocument (d : Decoder α) (doc : Document) : Except Misfit α := do
  let x ← d ⟨true, 0⟩ doc.tree
  if !doc.trailing.isEmpty then .error (.peeking .trailingCharacters doc.trailing)
  pure x

def ofText (d : Decoder α) (s : List Char) : Except TextError α :=
  (d.ofDocument (.ofText s)).mapError fun e => ⟨e.cause, e.place.locate s⟩

end Decoder

def parse (s : List Char) : Except TextError Value := Decoder.ofText Decoder.any s

end Automation.Json
