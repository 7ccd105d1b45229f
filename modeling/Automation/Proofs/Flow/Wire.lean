import Automation.Flow
import Automation.Proofs.Json.Members

/-!
# Nodes, edges and variables read back

The decoders of the parts of a flow take what their encoders write.  A node or a variable is taken
back if the values in it are as records keep them and do not nest too deep, and a position if its
numbers are finite, since there is no text for any other.
-/

namespace Automation

open Json (Decoder Layout Reading)
open Json.Layout (commutes_nil fills_here fills_there reads_nil Reads)

namespace Position

/-- Both numbers have a text. -/
def Finite (p : Position) : Prop := p.x.isFinite = true ∧ p.y.isFinite = true

end Position

theorem Json.Layout.Reads.optional {α β σ ρ : Type} {l : Layout σ ρ} {r : Reading} {k : String}
    {encode : α → Value} {decoded : α → β} {o : Option α} {rest : Record} {s' : σ}
    (slots : Option β → σ)
    (h : ∀ x ∈ o, l.Fills r k (encode x) (slots none) (slots (some (decoded x))))
    (hrest : l.Reads r rest (slots (o.map decoded)) s') :
    l.Reads r (Record.optional k encode o ++ rest) (slots none) s' := by
  cases o with
  | none => exact hrest
  | some x => exact .cons (h x rfl) hrest

theorem Record.ne_of_mem_optional {α : Type} {k key : String} {encode : α → Value} {o : Option α}
    {rest : Record} (hk : k ≠ key) (hrest : ∀ m ∈ rest, m.1 ≠ key) :
    ∀ m ∈ optional k encode o ++ rest, m.1 ≠ key := by
  cases o with
  | none => exact hrest
  | some x => exact List.forall_mem_cons.2 ⟨hk, hrest⟩

theorem Json.Layout.Reads.writtenOptional {α β σ ρ : Type} {l : Layout σ ρ} {r : Reading}
    {key : String} {d : Decoder β} {default? : Option β} {encode : α → Value} {decoded : α → β}
    {o : Option α} {rest : Record} {s : σ} (hd : ∀ x, d.Takes r (encode x) (decoded x))
    (hkeys : ∀ m ∈ rest, m.1 ≠ key) (h : l.Reads r rest l.start s) :
    (l.field key d default?).Reads r (Record.optional key encode o ++ rest) (none, l.start)
      (o.map decoded, s) := by
  cases o with
  | none => exact fun ms hms => readMembers_behind hms hkeys (h ms hms)
  | some x => exact .written (hd x) hkeys h

section Decoders

variable {r : Reading}

theorem takes_ofDouble {x : Double} (hx : x.isFinite = true) :
    Decoder.double.Takes r (.ofDouble x) x := by
  cases x with
  | finite negative size => exact Decoder.takes_double negative size
  | infinite => cases hx
  | nan => cases hx

theorem Position.takes (p : Position) (hp : p.Finite) (hdepth : r.Allows p.encode.nesting) :
    Position.decoder.Takes r p.encode p := by
  have hreads : layout.Reads r.inner [("x", .ofDouble p.x), ("y", .ofDouble p.y)] layout.start
      (some p.x, some p.y, ()) :=
    .cons (fills_here (takes_ofDouble hp.1))
      (.cons (fills_there (by decide) (fills_here (takes_ofDouble hp.2))) reads_nil)
  exact Layout.takes_object hdepth hreads rfl

/-- What a node has to be like for its text to read back. -/
structure Node.Storable (n : Node) : Prop where
  finite : n.position.Finite
  ordered : (Value.object n.data).Ordered

theorem Node.nodup_fields (n : Node) : (n.fields.map Prod.fst).Nodup :=
  show ["id", "type", "label", "position", "data"].Nodup by decide

theorem Node.takes_fields (n : Node) (hn : n.Storable)
    (hdepth : r.Allows (Value.object n.fields).nesting) :
    Node.decoder.Takes r (.object n.fields) n := by
  have hdata : r.inner.Allows (Value.object n.data).nesting :=
    hdepth.inner (Value.nesting_lt_object (m := ("data", .object n.data)) (by simp [fields]))
  have hposition : r.inner.Allows n.position.encode.nesting :=
    hdepth.inner (Value.nesting_lt_object (m := ("position", n.position.encode)) (by simp [fields]))
  have hreads : layout.Reads r.inner n.fields layout.start
      (some n.id, some n.type, some n.label, some n.position, some n.data, ()) := by
    refine .written (Decoder.takes_text n.id) (by simp) ?_
    refine .written (Decoder.takes_text n.type) (by simp) ?_
    refine .written (Decoder.takes_text n.label) (by simp) ?_
    refine .written (n.position.takes hn.finite hposition) (by simp) ?_
    exact .written (Decoder.takes_record hn.ordered hdata) (by simp) reads_nil
  exact Layout.takes_object hdepth hreads rfl

theorem Node.nesting_encode (n : Node) : n.encode.nesting = (Value.object n.fields).nesting :=
  Value.nesting_ofList n.nodup_fields

theorem Node.takes (n : Node) (hn : n.Storable) (hdepth : r.Allows n.encode.nesting) :
    Node.decoder.Takes r n.encode n := by
  have hcommutes : Node.layout.Commutes := commutes_nil.field.field.field.field.field
  rw [nesting_encode] at hdepth
  exact hcommutes.takes_ofList n.nodup_fields (n.takes_fields hn hdepth)

theorem takes_optionalText (s : String) :
    (Decoder.option Decoder.text).Takes r (.string s) (some s) :=
  Decoder.takes_some (Decoder.takes_text s) (by simp)

theorem Edge.nodup_fields (e : Edge) : (e.fields.map Prod.fst).Nodup := by
  rw [fields]
  cases e.sourceHandle <;> cases e.targetHandle <;> cases e.label <;> simp [Record.optional]

theorem Edge.takes_fields (e : Edge) (hdepth : r.Allows (Value.object e.fields).nesting) :
    Edge.decoder.Takes r (.object e.fields) e := by
  have hfields : e.fields = ("id", .string e.id) :: ("source", .string e.source) ::
      ("target", .string e.target) :: (Record.optional "source_handle" .string e.sourceHandle ++
        (Record.optional "target_handle" .string e.targetHandle ++
          (Record.optional "label" .string e.label ++ []))) := by
    rw [fields, List.append_nil]
  have hhandles : ∀ key ∉ ["source_handle", "target_handle", "label"],
      ∀ m ∈ Record.optional "source_handle" .string e.sourceHandle ++
        (Record.optional "target_handle" .string e.targetHandle ++
          (Record.optional "label" .string e.label ++ [])), m.1 ≠ key := by
    intro key hkey
    simp only [List.mem_cons, List.not_mem_nil, or_false, not_or] at hkey
    exact Record.ne_of_mem_optional (Ne.symm hkey.1) <|
      Record.ne_of_mem_optional (Ne.symm hkey.2.1) <|
      Record.ne_of_mem_optional (Ne.symm hkey.2.2) (by simp)
  have hreads : layout.Reads r.inner e.fields layout.start
      (some e.id, some e.source, some e.target, e.sourceHandle.map some, e.targetHandle.map some,
        e.label.map some, ()) := by
    rw [hfields]
    refine .written (Decoder.takes_text e.id) (List.forall_mem_cons.2 ⟨by simp,
      List.forall_mem_cons.2 ⟨by simp, hhandles "id" (by decide)⟩⟩) ?_
    refine .written (Decoder.takes_text e.source) (List.forall_mem_cons.2 ⟨by simp,
      hhandles "source" (by decide)⟩) ?_
    refine .written (Decoder.takes_text e.target) (hhandles "target" (by decide)) ?_
    refine .writtenOptional takes_optionalText (Record.ne_of_mem_optional (by decide)
      (Record.ne_of_mem_optional (by decide) (by simp))) ?_
    refine .writtenOptional takes_optionalText (Record.ne_of_mem_optional (by decide) (by simp)) ?_
    exact .writtenOptional takes_optionalText (by simp) reads_nil
  have hfinish : layout.finish (fun _ key => .missingField key)
      (some e.id, some e.source, some e.target, e.sourceHandle.map some, e.targetHandle.map some,
        e.label.map some, ()) =
      .ok (e.id, e.source, e.target, e.sourceHandle, e.targetHandle, e.label, ()) := by
    cases e.sourceHandle <;> cases e.targetHandle <;> cases e.label <;> rfl
  exact Layout.takes_object hdepth hreads hfinish

theorem Edge.takes (e : Edge) (hdepth : r.Allows e.encode.nesting) :
    Edge.decoder.Takes r e.encode e := by
  have hcommutes : Edge.layout.Commutes := commutes_nil.field.field.field.field.field.field
  rw [encode, Value.nesting_ofList e.nodup_fields] at hdepth
  exact hcommutes.takes_ofList e.nodup_fields (e.takes_fields hdepth)

theorem Edge.nesting_fields (e : Edge) : (Value.object e.fields).nesting = 1 := by
  rw [fields]
  cases e.label <;> cases e.sourceHandle <;> cases e.targetHandle <;> rfl

theorem Edge.nesting_encode (e : Edge) : e.encode.nesting = 1 := by
  rw [encode, Value.nesting_ofList e.nodup_fields, e.nesting_fields]

theorem Variable.nodup_fields (v : Variable) : (v.fields.map Prod.fst).Nodup :=
  show ["name", "value", "type"].Nodup by decide

theorem Variable.takes_fields (v : Variable) (hv : v.value.Ordered)
    (hdepth : r.Allows (Value.object v.fields).nesting) :
    Variable.decoder.Takes r (.object v.fields) v := by
  have hvalue : r.inner.Allows v.value.nesting :=
    hdepth.inner (Value.nesting_lt_object (m := ("value", v.value)) (by simp [fields]))
  have hreads : layout.Reads r.inner v.fields layout.start
      (some v.name, some v.value, some v.type, ()) := by
    refine .written (Decoder.takes_text v.name) (by simp) ?_
    refine .written (Decoder.takes_any hv hvalue) (by simp) ?_
    exact .written (Decoder.takes_variant (VariableType.lookup_name v.type)) (by simp) reads_nil
  exact Layout.takes_object hdepth hreads rfl

theorem Variable.nesting_encode (v : Variable) :
    v.encode.nesting = (Value.object v.fields).nesting := Value.nesting_ofList v.nodup_fields

theorem Variable.takes (v : Variable) (hv : v.value.Ordered) (hdepth : r.Allows v.encode.nesting) :
    Variable.decoder.Takes r v.encode v := by
  have hcommutes : Variable.layout.Commutes := commutes_nil.field.field.field
  rw [nesting_encode] at hdepth
  exact hcommutes.takes_ofList v.nodup_fields (v.takes_fields hv hdepth)

end Decoders

end Automation
