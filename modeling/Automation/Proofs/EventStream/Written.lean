import Automation.Proofs.EventStream.Chunks
import Automation.Proofs.Text.Split
import Automation.Proofs.Text.Utf8

/-!
# Events read back as they were written

An event is written as a line for its type, if it has one, a line for each line of its data, and a
blank line.  All lines of one event end alike, in a line feed or in a carriage return and a line feed,
and comments may stand among them (`Written`).  `Parser.feedAll_written` says that a parser makes of
the bytes of such texts, however they are cut, the events that were written and nothing else.

The bytes of an event come first.  No line is empty or starts with a carriage return, so no blank line
begins before the one that ends the event (`takeBlock?_written`), whichever way the lines of the next
event end.  Then the lines of the block are told apart (`lines_written`): a carriage return at the end
of a line is dropped in any case, so both ways of ending a line come to the same.
-/

namespace Automation.EventStream

/-! ## Writing -/

inductive LineBreak where
  | lineFeed
  | returnLineFeed

namespace LineBreak

def returns : LineBreak → List Char
  | lineFeed => []
  | returnLineFeed => ['\r']

def chars (b : LineBreak) : List Char := b.returns ++ ['\n']

end LineBreak

def Event.fields (e : Event) : List (List Char) :=
  (e.type.map fun name => "event: ".toList ++ name.toList).toList ++
    (Text.split '\n' e.data.toList).map ("data: ".toList ++ ·)

/-- What there is a text for: a carriage return would be taken for a part of a line's end, and so
would a line feed in the type.  Blanks at the start of the type would be dropped. -/
structure Event.Writable (e : Event) : Prop where
  data : '\r' ∉ e.data.toList
  type : ∀ name ∈ e.type, '\r' ∉ name.toList ∧ '\n' ∉ name.toList
  start : ∀ name ∈ e.type, ∀ c ∈ name.toList.head?, Text.isBlank c = false

def isComment (line : List Char) : Bool := line.head? = some ':'

/-- An event with the lines that it is written as.  Leaving out the comments leaves its own lines. -/
structure Written where
  event : Event
  lines : List (List Char)
  lineBreak : LineBreak
  writable : event.Writable
  fields : lines.filter (fun l => !isComment l) = event.fields
  comments : ∀ l ∈ lines, isComment l = true → '\n' ∉ l

def Written.text (w : Written) : List Char :=
  w.lines.flatMap (· ++ w.lineBreak.chars) ++ w.lineBreak.chars

/-! ## The block of an event -/

/-- Something that begins with neither a line feed nor a carriage return. -/
def BeginsLine (t : List UInt8) : Prop := ∃ b s, t = b :: s ∧ b ≠ 10 ∧ b ≠ 13

def LineBreak.bytes (b : LineBreak) : List UInt8 := Utf8.encode b.chars

theorem LineBreak.bytes_lineFeed : lineFeed.bytes = [10] := rfl

section Blocks

variable {l t rest : List UInt8} {b : LineBreak}

/-- A blank line begins with a line feed, or with the last byte of a line that ends in a carriage
return. -/
theorem afterBlankLine?_of_ne {c : UInt8} (h10 : c ≠ 10) (h13 : c = 13 → ∀ s, t ≠ 10 :: 13 :: s) :
    afterBlankLine? (c :: t) = none := by
  rw [Option.eq_none_iff_forall_ne_some]
  intro r hr
  obtain ⟨e, he, heq⟩ := afterBlankLine?_eq_some_iff.1 hr
  simp only [blankLines, List.mem_cons, List.not_mem_nil, or_false] at he
  rcases he with rfl | rfl
  · exact h10 (List.cons.inj heq).1
  · obtain ⟨hc, ht⟩ := List.cons.inj heq
    exact h13 hc _ ht

theorem takeBlock?_of_none {c : UInt8} (h : afterBlankLine? (c :: t) = none) :
    takeBlock? (c :: t) = (takeBlock? t).map fun (block, rest) => (c :: block, rest) := by
  rw [takeBlock?, h]

/-- No blank line begins inside a line: neither its end nor what follows it starts with one byte of a
blank line and goes on with the others. -/
theorem takeBlock?_line (hl : 10 ∉ l) (ht : b = .lineFeed → t.head? ≠ some 13) :
    takeBlock? (l ++ (b.bytes ++ t)) =
      (takeBlock? (b.bytes ++ t)).map fun (block, rest) => (l ++ block, rest) := by
  induction l with
  | nil => simp
  | cons c l ih =>
    obtain ⟨hc, hl⟩ := not_or.1 (mt List.mem_cons.2 hl)
    have hnone : afterBlankLine? (c :: (l ++ (b.bytes ++ t))) = none := by
      refine afterBlankLine?_of_ne (Ne.symm hc) fun _ s hs => ?_
      cases l with
      | nil =>
        -- The line has come to its end, and behind a line feed there is no carriage return.
        cases b with
        | lineFeed => exact ht rfl (congrArg List.head? (List.cons.inj hs).2)
        | returnLineFeed => cases (List.cons.inj hs).1
      | cons c' l => exact hl (List.mem_cons.2 (.inl (List.cons.inj hs).1.symm))
    rw [List.cons_append, takeBlock?_of_none hnone, ih hl, Option.map_map]
    rfl

theorem takeBlock?_lineBreak (ht : BeginsLine t) :
    takeBlock? (b.bytes ++ t) =
      (takeBlock? t).map fun (block, rest) => (b.bytes ++ block, rest) := by
  obtain ⟨c, s, rfl, h10, h13⟩ := ht
  have hfeed : takeBlock? (10 :: c :: s) =
      (takeBlock? (c :: s)).map fun (block, rest) => (10 :: block, rest) := by
    refine takeBlock?_of_none (Option.eq_none_iff_forall_ne_some.2 fun r hr => ?_)
    obtain ⟨e, he, heq⟩ := afterBlankLine?_eq_some_iff.1 hr
    simp only [blankLines, List.mem_cons, List.not_mem_nil, or_false] at he
    rcases he with rfl | rfl
    · exact h10 (List.cons.inj (List.cons.inj heq).2).1
    · cases (List.cons.inj heq).1
  cases b with
  | lineFeed => exact hfeed
  | returnLineFeed =>
    have hreturn : afterBlankLine? (13 :: 10 :: c :: s) = none :=
      afterBlankLine?_of_ne (by decide) fun _ s' hs => h13 (List.cons.inj (List.cons.inj hs).2).1
    show takeBlock? (13 :: 10 :: c :: s) = _
    rw [takeBlock?_of_none hreturn, hfeed, Option.map_map]
    rfl

theorem takeBlock?_blankLine : takeBlock? (b.bytes ++ (b.bytes ++ t)) = some ([], t) := by
  cases b <;> rfl

end Blocks

/-- What is written as a line.  It does not start with a carriage return, and it is not empty. -/
structure IsLine (l : List Char) : Prop where
  noFeed : '\n' ∉ l
  start : ∃ c s, l = c :: s ∧ c ≠ '\r'

theorem IsLine.not_mem_encode {l : List Char} (h : IsLine l) : 10 ∉ Utf8.encode l :=
  fun hmem => h.noFeed (Utf8.mem_of_mem_encode (by decide) hmem)

theorem IsLine.beginsLine {l : List Char} (h : IsLine l) (t : List UInt8) :
    BeginsLine (Utf8.encode l ++ t) := by
  obtain ⟨c, s, rfl, hc⟩ := h.start
  obtain ⟨b, r, hb⟩ : ∃ b r, String.utf8EncodeChar c = b :: r :=
    List.exists_cons_of_ne_nil (by simp)
  have hmem : b ∈ String.utf8EncodeChar c := hb ▸ List.mem_cons_self ..
  have hne : ∀ d : Char, d.toNat < 0x80 → c ≠ d → b.toNat ≠ d.toNat := fun d hd hcd hbd =>
    hcd (Char.toNat_inj.1 ((Utf8.toNat_of_mem_char (hbd ▸ hd) hmem).symm.trans hbd))
  refine ⟨b, r ++ Utf8.encode s ++ t, ?_, ?_, ?_⟩
  · rw [Utf8.encode_cons, hb]
    rfl
  · rintro rfl
    exact hne '\n' (by decide) (fun h' => h.noFeed (h' ▸ List.mem_cons_self ..)) rfl
  · rintro rfl
    exact hne '\r' (by decide) hc rfl

/-- Lines with their ends are lines with one end between any two, and an end. -/
theorem flatMap_lineBreak {b : List Char} {ls : List (List Char)} (h : ls ≠ []) :
    ls.flatMap (· ++ b) = b.intercalate ls ++ b := by
  induction ls with
  | nil => exact absurd rfl h
  | cons l ls ih =>
    cases ls with
    | nil => simp
    | cons l' ls =>
      rw [List.flatMap_cons, ih (List.cons_ne_nil _ _), List.intercalate_cons_cons]
      simp only [List.append_assoc]

/-- The first block in the bytes of some lines and a blank line is that of the lines. -/
theorem takeBlock?_written (b : LineBreak) {ls : List (List Char)} (hne : ls ≠ [])
    (h : ∀ l ∈ ls, IsLine l) (t : List UInt8) :
    takeBlock? (Utf8.encode (b.chars.intercalate ls) ++ (b.bytes ++ (b.bytes ++ t))) =
      some (Utf8.encode (b.chars.intercalate ls), t) := by
  -- Line by line: neither a line nor its end completes a blank line until the last line has ended.
  induction ls with
  | nil => exact absurd rfl hne
  | cons l ls ih =>
    obtain ⟨hl, hls⟩ := List.forall_mem_cons.1 h
    cases ls with
    | nil =>
      have ht : b = .lineFeed → (b.bytes ++ t).head? ≠ some 13 := by
        rintro rfl
        simp [LineBreak.bytes_lineFeed]
      rw [List.intercalate_singleton, takeBlock?_line hl.not_mem_encode ht, takeBlock?_blankLine]
      simp
    | cons l' ls =>
      obtain ⟨hl', -⟩ := List.forall_mem_cons.1 hls
      have hrest := ih (List.cons_ne_nil _ _) hls
      have hbegins : BeginsLine
          (Utf8.encode (b.chars.intercalate (l' :: ls)) ++ (b.bytes ++ (b.bytes ++ t))) := by
        cases ls with
        | nil =>
          rw [List.intercalate_singleton]
          exact hl'.beginsLine _
        | cons l'' ls =>
          rw [List.intercalate_cons_cons, Utf8.encode_append, Utf8.encode_append]
          simp only [List.append_assoc]
          exact hl'.beginsLine _
      rw [List.intercalate_cons_cons, Utf8.encode_append, Utf8.encode_append]
      simp only [List.append_assoc]
      show takeBlock? (_ ++ (b.bytes ++ _)) = _
      rw [takeBlock?_line hl.not_mem_encode, takeBlock?_lineBreak hbegins, hrest]
      · rfl
      · obtain ⟨c, s, heq, -, h13⟩ := hbegins
        rw [heq]
        simpa using fun _ => h13

/-! ## The lines of a block -/

theorem trimReturns_append {s returns : List Char} (h : ∀ c ∈ returns, c = '\r') :
    trimReturns (s ++ returns) = trimReturns s := by
  rw [trimReturns, List.reverse_append, List.dropWhile_append_of_pos, trimReturns]
  simpa using h

theorem trimReturns_of_not_mem {s : List Char} (h : '\r' ∉ s) : trimReturns s = s := by
  rw [trimReturns]
  cases hs : s.reverse with
  | nil => rw [List.dropWhile_nil, ← hs, List.reverse_reverse]
  | cons c r =>
    have hc : c ≠ '\r' := fun heq => h (heq ▸ List.mem_reverse.1 (hs ▸ List.mem_cons_self ..))
    rw [List.dropWhile_cons_of_neg (by simpa using hc), ← hs, List.reverse_reverse]

theorem trimReturns_cons {c : Char} (hc : c ≠ '\r') (s : List Char) :
    trimReturns (c :: s) = c :: trimReturns s := by
  rw [trimReturns, trimReturns, List.reverse_cons, List.dropWhile_append]
  split
  · next hempty =>
    rw [List.isEmpty_iff.1 hempty, List.dropWhile_cons_of_neg (by simpa using hc)]
    rfl
  · rw [List.reverse_append]
    rfl

/-- Trimming the lines of a text gives the lines that it was made of, trimmed. -/
theorem map_trimReturns_split (b : LineBreak) {ls : List (List Char)} (hne : ls ≠ [])
    (h : ∀ l ∈ ls, '\n' ∉ l) :
    (Text.split '\n' (b.chars.intercalate ls)).map trimReturns = ls.map trimReturns := by
  have hreturns : ∀ c ∈ b.returns, c = '\r' := by cases b <;> simp [LineBreak.returns]
  induction ls with
  | nil => exact absurd rfl hne
  | cons l ls ih =>
    obtain ⟨hl, hls⟩ := List.forall_mem_cons.1 h
    cases ls with
    | nil => rw [List.intercalate_singleton, Text.split_eq_splitOn, List.splitOn_eq_singleton hl]
    | cons l' ls =>
      have hfeed : '\n' ∉ l ++ b.returns := by
        rw [List.mem_append, not_or]
        exact ⟨hl, fun hmem => absurd (hreturns _ hmem) (by decide)⟩
      have hjoined : b.chars.intercalate (l :: l' :: ls) =
          (l ++ b.returns) ++ '\n' :: b.chars.intercalate (l' :: ls) := by
        rw [List.intercalate_cons_cons, LineBreak.chars]
        simp only [List.append_assoc, List.singleton_append]
      rw [hjoined, Text.split_eq_splitOn, List.splitOn_append_cons_self_of_not_mem hfeed,
        ← Text.split_eq_splitOn, List.map_cons, trimReturns_append hreturns,
        ih (List.cons_ne_nil _ _) hls]
      rfl

theorem lines_written (b : LineBreak) {ls : List (List Char)} (hne : ls ≠ [])
    (h : ∀ l ∈ ls, '\n' ∉ l) :
    lines (b.chars.intercalate ls) = ls.map fun l => Line.ofText (trimReturns l) := by
  have hmap := congrArg (List.map Line.ofText) (map_trimReturns_split b hne h)
  simpa only [lines, List.map_map, Function.comp_def] using hmap

/-! ## The event of a block -/

theorem ofText_comment {l : List Char} (h : isComment l = true) :
    Line.ofText (trimReturns l) = .other := by
  cases l with
  | nil => cases h
  | cons c l =>
    obtain rfl : c = ':' := by simpa [isComment] using h
    rw [trimReturns_cons (by decide)]
    rfl

theorem ofText_type {name : List Char} (h : ∀ c ∈ name.head?, Text.isBlank c = false) :
    Line.ofText ("event: ".toList ++ name) = .type name := by
  have htrim : Text.trimStart (' ' :: name) = name := by
    rw [Text.trimStart, List.dropWhile_cons_of_pos (by decide)]
    cases name with
    | nil => rfl
    | cons c name => exact List.dropWhile_cons_of_neg (by simpa using h c rfl)
  show Line.type (Text.trimStart (' ' :: name)) = _
  rw [htrim]

theorem ofText_data (text : List Char) : Line.ofText ("data: ".toList ++ text) = .data text := by
  rfl

theorem ofLines?_filter (ls : List (List Char)) :
    Event.ofLines? (ls.map fun l => Line.ofText (trimReturns l)) =
      Event.ofLines? ((ls.filter fun l => !isComment l).map fun l =>
        Line.ofText (trimReturns l)) := by
  have hfilter : ∀ {α : Type} (read : Line → Option α), read .other = none →
      (ls.map fun l => Line.ofText (trimReturns l)).filterMap read =
        ((ls.filter fun l => !isComment l).map fun l =>
          Line.ofText (trimReturns l)).filterMap read := by
    intro α read hother
    rw [List.filterMap_map, List.filterMap_map, List.filterMap_filter]
    congr 1
    funext l
    cases h : isComment l with
    | false => rfl
    | true => rw [Function.comp_apply, ofText_comment h, hother]; rfl
  rw [Event.ofLines?, Event.ofLines?, hfilter Line.data? rfl, hfilter Line.type? rfl]

namespace Event

variable {e : Event}

theorem fields_ne_nil (e : Event) : e.fields ≠ [] := by
  rw [fields]
  refine List.append_ne_nil_of_right_ne_nil _ fun h => ?_
  exact Text.split_ne_nil '\n' e.data.toList (List.map_eq_nil_iff.1 h)

/-- The lines of an event hold neither a carriage return nor a line feed. -/
theorem Writable.of_mem_fields (he : e.Writable) {l : List Char} (hl : l ∈ e.fields) :
    '\r' ∉ l ∧ '\n' ∉ l := by
  rcases List.mem_append.1 hl with hl | hl
  · obtain ⟨name, hname, rfl⟩ := Option.map_eq_some_iff.1 (Option.mem_toList.1 hl)
    obtain ⟨hreturn, hfeed⟩ := he.type name hname
    exact ⟨by simpa using hreturn, by simpa using hfeed⟩
  · obtain ⟨piece, hpiece, rfl⟩ := List.mem_map.1 hl
    have hreturn : '\r' ∉ piece := fun hmem => he.data (Text.of_mem_split hpiece hmem).1
    have hfeed : '\n' ∉ piece := fun hmem => (Text.of_mem_split hpiece hmem).2 rfl
    exact ⟨by simpa using hreturn, by simpa using hfeed⟩

theorem Writable.map_fields (he : e.Writable) :
    e.fields.map (fun l => Line.ofText (trimReturns l)) =
      (e.type.map fun name => Line.type name.toList).toList ++
        (Text.split '\n' e.data.toList).map Line.data := by
  have hread : ∀ l ∈ e.fields, Line.ofText (trimReturns l) = Line.ofText l := fun l hl => by
    rw [trimReturns_of_not_mem (he.of_mem_fields hl).1]
  have hdata : Line.ofText ∘ ("data: ".toList ++ ·) = Line.data := funext ofText_data
  rw [List.map_congr_left hread, fields, List.map_append, List.map_map, hdata]
  congr 1
  cases htype : e.type with
  | none => rfl
  | some name => exact congrArg (fun l => [l]) (ofText_type (he.start name htype))

theorem Writable.ofLines?_fields (he : e.Writable) :
    ofLines? (e.fields.map fun l => Line.ofText (trimReturns l)) = some e := by
  have hdata : (e.fields.map fun l => Line.ofText (trimReturns l)).filterMap Line.data? =
      Text.split '\n' e.data.toList := by
    rw [he.map_fields, List.filterMap_append, List.filterMap_map]
    cases e.type <;> simp [Line.data?, Function.comp_def]
  have htype : (e.fields.map fun l => Line.ofText (trimReturns l)).filterMap Line.type? =
      (e.type.map String.toList).toList := by
    rw [he.map_fields, List.filterMap_append, List.filterMap_map]
    cases e.type <;> simp [Line.type?, Function.comp_def]
  have hjoined := Text.intercalate_split '\n' e.data.toList
  rw [ofLines?, hdata, htype]
  cases hsplit : Text.split '\n' e.data.toList with
  | nil => exact absurd hsplit (Text.split_ne_nil '\n' e.data.toList)
  | cons first rest =>
    rw [hsplit] at hjoined
    obtain ⟨type, data⟩ := e
    cases type <;> simp [hjoined]

end Event

namespace Written

variable (w : Written)

theorem lines_ne_nil : w.lines ≠ [] := fun h =>
  w.event.fields_ne_nil (by rw [← w.fields, h, List.filter_nil])

theorem isLine_of_mem {l : List Char} (hl : l ∈ w.lines) : IsLine l := by
  cases h : isComment l with
  | true =>
    refine ⟨w.comments l hl h, ?_⟩
    cases l with
    | nil => cases h
    | cons c s =>
      obtain rfl : c = ':' := by simpa [isComment] using h
      exact ⟨':', s, rfl, by decide⟩
  | false =>
    have hfield : l ∈ w.event.fields := by
      rw [← w.fields]
      exact List.mem_filter.2 ⟨hl, by rw [h]; rfl⟩
    refine ⟨(w.writable.of_mem_fields hfield).2, ?_⟩
    rcases List.mem_append.1 hfield with hl | hl
    · obtain ⟨name, -, rfl⟩ := Option.map_eq_some_iff.1 (Option.mem_toList.1 hl)
      exact ⟨'e', _, rfl, by decide⟩
    · obtain ⟨piece, -, rfl⟩ := List.mem_map.1 hl
      exact ⟨'d', _, rfl, by decide⟩

def block : List UInt8 := Utf8.encode (w.lineBreak.chars.intercalate w.lines)

theorem encode_text : Utf8.encode w.text = w.block ++ (w.lineBreak.bytes ++ w.lineBreak.bytes) := by
  rw [text, flatMap_lineBreak w.lines_ne_nil, Utf8.encode_append, Utf8.encode_append,
    List.append_assoc]
  rfl

theorem takeBlock?_text (t : List UInt8) :
    takeBlock? (Utf8.encode w.text ++ t) = some (w.block, t) := by
  rw [encode_text, List.append_assoc, List.append_assoc]
  exact takeBlock?_written w.lineBreak w.lines_ne_nil (fun _ => w.isLine_of_mem) t

theorem ofBlock?_block : Event.ofBlock? w.block = some w.event := by
  rw [Event.ofBlock?, block, Utf8.decode_encode,
    lines_written w.lineBreak w.lines_ne_nil fun l hl => (w.isLine_of_mem hl).noFeed,
    ofLines?_filter, w.fields, w.writable.ofLines?_fields]

/-- The blocks in the bytes of several events are theirs, and nothing is left over. -/
theorem takeBlocks_texts (ws : List Written) :
    takeBlocks (Utf8.encode (ws.flatMap text)) = (ws.map block, []) := by
  induction ws with
  | nil => exact takeBlocks_of_none rfl
  | cons w ws ih =>
    rw [List.flatMap_cons, Utf8.encode_append, takeBlocks_of_some (w.takeBlock?_text _), ih,
      List.map_cons]

end Written

/-- A new parser that is fed the bytes of written events, in whatever chunks, gives the events that
were written.  Nothing is left over to finish with. -/
theorem Parser.feedAll_written (ws : List Written) {chunks : List (List UInt8)}
    (hchunks : chunks.flatten = Utf8.encode (ws.flatMap Written.text)) :
    (empty.feedAll chunks).1 = ws.map Written.event ∧
      (empty.feedAll chunks).2.finish.1 = none := by
  have hread : Event.ofBlock? ∘ Written.block = some ∘ Written.event :=
    funext Written.ofBlock?_block
  have hevents : (ws.map Written.block).filterMap Event.ofBlock? = ws.map Written.event := by
    rw [List.filterMap_map, hread, List.filterMap_eq_map]
  have hfeed : empty.feedAll chunks = (ws.map Written.event, empty) := by
    rw [(feedAll_empty chunks).1, hchunks]
    simp only [feed, empty, List.nil_append, Written.takeBlocks_texts, hevents]
  rw [hfeed]
  exact ⟨rfl, rfl⟩

/-- A note of two lines with comments among them, whose lines end in carriage returns and line
feeds. -/
def Written.note : Written where
  event := ⟨some "note", "é\n  b"⟩
  lines := [": hi".toList, "event: note".toList, "data: é".toList, ":".toList, "data:   b".toList]
  lineBreak := .returnLineFeed
  writable := ⟨by decide, by simp, by simp; decide⟩
  fields := by decide
  comments := by decide

def Written.blank : Written where
  event := ⟨none, ""⟩
  lines := ["data: ".toList]
  lineBreak := .lineFeed
  writable := ⟨by decide, by simp, by simp⟩
  fields := by decide
  comments := by decide

/-- The bytes of the note and the blank event, cut inside the character of two bytes and inside the
first blank line. -/
def Written.noteChunks : List (List UInt8) :=
  let bytes := Utf8.encode ([note, blank].flatMap text)
  [bytes.take 26, (bytes.drop 26).take 18, bytes.drop 44]

theorem Parser.feedAll_written_note :
    Written.noteChunks.flatten = Utf8.encode ([Written.note, Written.blank].flatMap Written.text) ∧
      (empty.feedAll Written.noteChunks).1 = [⟨some "note", "é\n  b"⟩, ⟨none, ""⟩] ∧
      (empty.feedAll Written.noteChunks).2.finish.1 = none := by
  have hchunks : Written.noteChunks.flatten =
      Utf8.encode ([Written.note, Written.blank].flatMap Written.text) := by decide
  exact ⟨hchunks, feedAll_written [Written.note, Written.blank] hchunks⟩

end Automation.EventStream
