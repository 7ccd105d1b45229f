import Automation.Proofs.Json.Stable
import Automation.Proofs.Node.Config
import Automation.Proofs.Run.HeaderLines

/-!
# Structured bodies

A body that is no string is a template with strings in it.  `Value.SameShape` compares two values and lets
only their strings differ; putting variables in keeps the shape (`Template.sameShape_interpolateValue`).  All
that it takes for a value to be read back from its text is a matter of shape, so the text of a body is read
as the template with its strings filled in, whatever the variables hold (`Node.body_of_plan`).
-/

namespace Automation

/-! ## Shapes -/

namespace Value

/-- Whether two values have the same keys, as many items, and the same leaves apart from strings, which
are related by `P`. -/
inductive SameShape (P : String → String → Prop) : Value → Value → Prop
  | null : SameShape P .null .null
  | bool (b : Bool) : SameShape P (.bool b) (.bool b)
  | number (n : Number) : SameShape P (.number n) (.number n)
  | string {s t : String} (h : P s t) : SameShape P (.string s) (.string t)
  | array {items items' : List Value} (hlength : items.length = items'.length)
      (h : ∀ p ∈ items.zip items', SameShape P p.1 p.2) : SameShape P (.array items) (.array items')
  | object {r r' : List (String × Value)} (hkeys : r.map Prod.fst = r'.map Prod.fst)
      (h : ∀ p ∈ r.zip r', SameShape P p.1.2 p.2.2) : SameShape P (.object r) (.object r')

theorem exists_mem_zip {α : Type} {l l' : List α} (hlength : l.length = l'.length) {b : α}
    (hb : b ∈ l') : ∃ a ∈ l, (a, b) ∈ l.zip l' := by
  obtain ⟨i, hi, rfl⟩ := List.mem_iff_getElem.1 hb
  have hi' : i < l.length := by omega
  have hzip : i < (l.zip l').length := by
    rw [List.length_zip]
    omega
  refine ⟨l[i], List.getElem_mem hi', ?_⟩
  rw [← List.getElem_zip (h := hzip)]
  exact List.getElem_mem hzip

namespace SameShape

variable {P : String → String → Prop} {v w : Value}

theorem ordered (h : v.SameShape P w) (hv : v.Ordered) : w.Ordered := by
  induction h with
  | null => exact .null
  | bool b => exact .bool b
  | number n => exact .number n
  | @string s t => exact .string t
  | array hlength _ ih =>
    cases hv with
    | array hitems =>
      refine .array fun w hw => ?_
      obtain ⟨v, hv, hmem⟩ := exists_mem_zip hlength hw
      exact ih _ hmem (hitems v hv)
  | object hkeys _ ih =>
    cases hv with
    | object hsorted hmembers =>
      have hlength := by simpa using congrArg List.length hkeys
      refine .object ?_ fun m hm => ?_
      · rw [Keyed.SortedKeys, Keyed.keys, ← hkeys]
        exact hsorted
      · obtain ⟨m', hm', hmem⟩ := exists_mem_zip hlength hm
        exact ih _ hmem (hmembers m' hm')

theorem nesting_le (h : v.SameShape P w) : w.nesting ≤ v.nesting := by
  induction h with
  | null | bool | number | string => exact Nat.le_refl _
  | array hlength _ ih =>
    rw [nesting, nesting]
    refine Nat.succ_le_succ (nestingOfItems_le_iff.2 fun w hw => ?_)
    obtain ⟨v, hv, hmem⟩ := exists_mem_zip hlength hw
    exact (ih _ hmem).trans (nestingOfItems_le_iff.1 (Nat.le_refl _) v hv)
  | object hkeys _ ih =>
    have hlength := by simpa using congrArg List.length hkeys
    rw [nesting, nesting, nestingOfMembers_eq, nestingOfMembers_eq]
    refine Nat.succ_le_succ (nestingOfItems_le_iff.2 (List.forall_mem_map.2 fun m hm => ?_))
    obtain ⟨m', hm', hmem⟩ := exists_mem_zip hlength hm
    exact (ih _ hmem).trans (nestingOfItems_le_iff.1 (Nat.le_refl _) _ (List.mem_map_of_mem hm'))

end SameShape

end Value

theorem Json.parse_print {v : Value} (hv : v.Ordered) (hdepth : v.nesting < depthLimit) :
    parse (print v) = .ok v := by
  refine Decoder.ofText_print (Decoder.takes_any hv fun _ => ?_)
  show 0 + v.nesting < depthLimit
  omega

/-! ## Filling in -/

namespace Template

theorem interpolateItems_eq (scope : Record) (items : List Value) :
    interpolateItems scope items = items.map (interpolateValue scope) := by
  induction items with
  | nil => rfl
  | cons v items ih => rw [interpolateItems, ih, List.map_cons]

theorem interpolateMembers_eq (scope : Record) (r : List (String × Value)) :
    interpolateMembers scope r = r.map fun m => (m.1, interpolateValue scope m.2) := by
  induction r with
  | nil => rfl
  | cons m r ih => rw [interpolateMembers, ih, List.map_cons]

theorem of_mem_zip_map {α β : Type} {f : α → β} {l : List α} {p : α × β} (h : p ∈ l.zip (l.map f)) :
    p.1 ∈ l ∧ p.2 = f p.1 := by
  induction l with
  | nil => cases h
  | cons a l ih =>
    rcases List.mem_cons.1 h with rfl | h
    · exact ⟨List.mem_cons_self, rfl⟩
    · exact (ih h).imp_left (List.mem_cons_of_mem a)

/-- Each string of a template is interpolated by itself, and nothing else changes. -/
theorem sameShape_interpolateValue (scope : Record) (v : Value) :
    v.SameShape (fun s t => t.toList = interpolate scope s.toList) (interpolateValue scope v) := by
  cases v with
  | null => exact .null
  | bool b => exact .bool b
  | number n => exact .number n
  | string s => exact .string (String.toList_ofList ..)
  | array items =>
    rw [interpolateValue, interpolateItems_eq]
    refine .array (List.length_map _).symm fun p hp => ?_
    obtain ⟨hmem, hp⟩ := of_mem_zip_map hp
    rw [hp]
    exact sameShape_interpolateValue scope p.1
  | object r =>
    rw [interpolateValue, interpolateMembers_eq]
    refine .object (by rw [List.map_map]; rfl) fun p hp => ?_
    obtain ⟨hmem, hp⟩ := of_mem_zip_map hp
    rw [hp]
    exact sameShape_interpolateValue scope p.1.2
termination_by sizeOf v
decreasing_by
  · have := List.sizeOf_lt_of_mem hmem
    simp
    omega
  · have := Json.sizeOf_lt_of_mem_members hmem
    simp
    omega

end Template

/-! ## The body of a request -/

namespace RequestConfig

variable {c : RequestConfig} {context : Context} {body : Value}

open Json (Decoder Reading)
open Json.Layout (Yields yields_nil)

/-- A body that has been decoded has the keys of its objects in order. -/
theorem ordered_body {r : Reading} {t : Json.Tree} (h : decoder r t = .ok c) :
    ∀ v ∈ c.body, v.Ordered := by
  have hany : ∀ {r t o}, Decoder.option Decoder.any r t = .ok o → ∀ v ∈ o, v.Ordered := by
    intro r t o ho v hv
    unfold Decoder.option at ho
    split at ho
    · cases ho
      cases hv
    · obtain ⟨w, hw, rfl⟩ := Checks.map_eq_ok_iff.1 ho
      obtain rfl := Option.some.inj hv
      exact Decoder.ordered_of_any hw
  have hnone : ∀ o ∈ some (none : Option Value), ∀ v ∈ o, v.Ordered := by
    intro o ho v hv
    obtain rfl := Option.some.inj ho
    cases hv
  obtain ⟨⟨_, _, _, _, body, _, _, ⟨⟩⟩, ⟨hbody, -⟩, rfl⟩ := Yields.of_decoder
    (.behind <| .behind <| .behind <| .behind <| .field hany hnone <| .behind <| .behind yields_nil) h
  exact hbody

theorem draft_of_plan {s : Services} {d : Http.Draft} {output : Http.Response → Record}
    (h : c.plan s context = .request d output) :
    ∃ template access default, d = c.draft template access default context := by
  rw [plan] at h
  split at h
  · cases h
  · split at h
    · split at h
      · cases h
      · cases h
        exact ⟨_, _, _, rfl⟩
    · cases h

theorem bodyText_of_structured (hbody : c.body = some body) (hnull : body ≠ .null)
    (hstring : ∀ s, body ≠ .string s) :
    c.bodyText context =
      some (.ofList (Json.print (Template.interpolateValue context.scope body))) := by
  rw [bodyText, hbody]
  cases body with
  | null => exact absurd rfl hnull
  | string s => exact absurd rfl (hstring s)
  | _ => rfl

end RequestConfig

/-- The body that a node sends for a structured template is read as JSON, and what is read has the shape of
the template.  In place of each string there is what that string alone comes to, so that no variable can
change the structure. -/
theorem Node.body_of_plan {s : Services} {n : Node} {context : Context} {c : RequestConfig} {body : Value}
    {d : Http.Draft} {output : Http.Response → Record}
    (hread : NodeConfig.ofNode n s.config.engine.triggerPrefix = .ok (.request c))
    (hbody : c.body = some body) (hnull : body ≠ .null) (hstring : ∀ t, body ≠ .string t)
    (hdepth : body.nesting < Json.depthLimit) (hplan : n.plan s context = .request d output) :
    ∃ text,
      d.body = some text ∧ (∀ request, d.toRequest = .ok request → request.body = some text) ∧
      Json.parse text.toList = .ok (Template.interpolateValue context.scope body) ∧
      body.SameShape (fun s t => t.toList = Template.interpolate context.scope s.toList)
        (Template.interpolateValue context.scope body) := by
  have hordered : body.Ordered := by
    obtain ⟨hdecode, -⟩ := NodeConfig.readFrom_of_ofNode hread
    exact RequestConfig.ordered_body (Checks.mapError_eq_ok_iff.1 hdecode) body hbody
  have hshape := Template.sameShape_interpolateValue context.scope body
  have hparse := Json.parse_print (hshape.ordered hordered) (hshape.nesting_le.trans_lt hdepth)
  have hdraft : d.body =
      some (.ofList (Json.print (Template.interpolateValue context.scope body))) := by
    rw [plan, hread] at hplan
    obtain ⟨template, access, default, rfl⟩ := RequestConfig.draft_of_plan hplan
    exact RequestConfig.bodyText_of_structured hbody hnull hstring
  refine ⟨_, hdraft, fun request hrequest => ?_, ?_, hshape⟩
  · rw [(Http.Draft.lines_of_toRequest hrequest).2, hdraft]
  · rw [String.toList_ofList, hparse]

def stayNode : Node :=
  (bookingNode "/stays").configure "body"
    (.object [("guest", .string "\x7b\x7bname\x7d\x7d"), ("nights", .ofNat 3)])

def stayConfig : RequestConfig :=
  { bookingConfig "/stays" with
    body := some (.object [("guest", .string "\x7b\x7bname\x7d\x7d"), ("nights", .ofNat 3)]) }

/-- A guest whose name would end the string that it is put into, and add a member. -/
def craftedName : String := "Ann\",\"nights\":0,\"vip\":\"yes"

theorem Node.body_of_plan_stay :
    let context : Context := ⟨[("name", .string craftedName)], [], [], []⟩
    ∃ d text, stayNode.plan bookingServices context = .request d RequestConfig.output ∧
      d.body = some text ∧
      Json.parse text.toList = .ok (.object [("guest", .string craftedName), ("nights", .ofNat 3)]) := by
  intro context
  have hread : NodeConfig.ofNode stayNode "trigger_" = .ok (.request stayConfig) := by
    with_unfolding_all rfl
  have hplan : stayNode.plan bookingServices context =
      .request (stayConfig.draft "/stays" (some bookings) bookingServices.config.engine.httpTimeout
        context) RequestConfig.output :=
    plan_of_request hread (by decide +kernel) (bookingConfig_access "/stays")
  obtain ⟨text, htext, -, hparse, -⟩ :=
    body_of_plan (s := bookingServices) hread rfl nofun nofun (by decide) hplan
  refine ⟨_, text, hplan, htext, hparse.trans ?_⟩
  have hname : Template.interpolate context.scope "\x7b\x7bname\x7d\x7d".toList =
      craftedName.toList := by
    decide +kernel
  have hnights : Template.interpolateValue context.scope (.ofNat 3) = .ofNat 3 := rfl
  rw [Template.interpolateValue, Template.interpolateMembers_eq, List.map_cons, List.map_cons,
    Template.interpolateValue, hname, hnights, Value.ofText, String.ofList_toList, List.map_nil]

end Automation
