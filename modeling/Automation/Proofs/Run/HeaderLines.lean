import Automation.Proofs.Checks
import Automation.Proofs.Run.BaseUrl

/-!
# The header lines of a request

The lines of a request come from its URL, if that names a user, from a credential and from the node itself.
`Http.valuesOf` takes the lines of one name together, whatever its case.

The lines of a credential are meant for the headers that the node leaves alone.  They are sent in any case:
the lines of the node come after them and take none of them back.  `Node.valuesOf_of_plan` says which
values go out for each name, and that those of the node go out alone just where nobody else has any.
-/

namespace Automation

namespace Http

/-! ## Lines by name -/

def valuesOf (name : String) (lines : List Header) : List String :=
  (lines.filter fun h => sameName h.1 name).map Prod.snd

theorem valuesOf_append (name : String) (lines lines' : List Header) :
    valuesOf name (lines ++ lines') = valuesOf name lines ++ valuesOf name lines' := by
  rw [valuesOf, List.filter_append, List.map_append, ← valuesOf, ← valuesOf]

theorem valuesOf_eq_nil_iff {name : String} {lines : List Header} :
    valuesOf name lines = [] ↔ ∀ h ∈ lines, sameName h.1 name = false := by
  simp only [valuesOf, List.map_eq_nil_iff, List.filter_eq_nil_iff, Bool.not_eq_true]

theorem valuesOf_congr {name name' : String} (h : sameName name name' = true) (lines : List Header) :
    valuesOf name lines = valuesOf name' lines := by
  have hlower : name.toList.map Char.toLower = name'.toList.map Char.toLower := of_decide_eq_true h
  simp only [valuesOf, sameName, hlower]

/-- The line for the user that the URL of a draft names. -/
def Draft.userLine (d : Draft) : List Header :=
  ((Url.ofText? d.url.toList).bind fun url => url.takeUser.1).toList

theorem Draft.name_of_mem_userLine {d : Draft} {h : Header} (hh : h ∈ d.userLine) :
    h.1 = "Authorization" := by
  rw [userLine, Option.mem_toList, Option.bind_eq_some_iff] at hh
  obtain ⟨url, -, huser⟩ := hh
  unfold Url.takeUser at huser
  split at huser
  · cases huser
  · dsimp only at huser
    split at huser <;> cases huser
    rfl

theorem Draft.lines_of_toRequest {d : Draft} {request : Request} (h : d.toRequest = .ok request) :
    request.headers = d.userLine ++ d.headers ∧ request.body = d.body := by
  unfold toRequest at h
  rw [userLine]
  split at h
  next => cases h
  next url hurl =>
    rw [hurl]
    dsimp only at h
    repeat (split at h; cases h)
    cases h
    exact ⟨rfl, rfl⟩

end Http

namespace RequestConfig

/-! ## The lines of a node and its credential -/

open Http

/-- The texts that a node gives a header, with the variables put in. -/
def given (c : RequestConfig) (context : Context) (name : String) : List String :=
  c.headers.filterMap fun (k, v) =>
    if sameName k name then v.asString?.map context.interpolate else none

theorem valuesOf_ownHeaders (c : RequestConfig) (context : Context) (name : String) :
    valuesOf name (c.ownHeaders context) = c.given context name := by
  rw [valuesOf, ownHeaders, given, List.filter_filterMap, List.map_filterMap]
  congr 1
  funext ⟨k, v⟩
  dsimp only
  cases v.asString? with
  | none => split <;> rfl
  | some text => by_cases hname : sameName k name = true <;> simp [hname]

theorem name_of_mem_signIn {access : ApiAccess} {h : Header} (hh : h ∈ signIn access) :
    h.1 = "Authorization" ∨ h.1 = "X-API-Key" := by
  rw [signIn] at hh
  cases hauth : access.authType <;> rw [hauth] at hh
  case none => cases hh
  case bearer => exact .inl (by rw [List.mem_singleton.1 hh]; rfl)
  case apiKey => exact .inr (by rw [List.mem_singleton.1 hh])
  case basic =>
    dsimp only at hh
    split at hh <;> exact .inl (by rw [List.mem_singleton.1 hh]; rfl)

/-- The line that says what a body is, where there is one and nobody else says it. -/
def typeLine (c : RequestConfig) (access : ApiAccess) (context : Context) (body : Option String) :
    List Header :=
  if body.isSome ∧ valuesOf contentType access.headers = [] ∧ c.given context contentType = [] then
    [(contentType, "application/json")]
  else []

variable {c : RequestConfig} {access : ApiAccess} {context : Context}

theorem withContentType_eq (body : Option String) :
    withContentType body (access.headers ++ c.ownHeaders context) =
      access.headers ++ c.ownHeaders context ++ c.typeLine access context body := by
  have hsaid : (!(access.headers ++ c.ownHeaders context).any fun h => sameName h.1 contentType) = true ↔
      valuesOf contentType access.headers = [] ∧ c.given context contentType = [] := by
    rw [← valuesOf_ownHeaders, ← List.append_eq_nil_iff, ← valuesOf_append, valuesOf_eq_nil_iff,
      Bool.not_eq_true', List.any_eq_false]
    simp only [Bool.not_eq_true]
  rw [withContentType, typeLine]
  simp only [hsaid]
  split
  · rfl
  · rw [List.append_nil]

variable {template : String} {default : Duration} {request : Request}

/-- The lines of a request: for the user of its URL, those of the credential, those of the node, the line
for the body, and the line that signs in. -/
theorem headers_of_toRequest
    (h : (c.draft template (some access) default context).toRequest = .ok request) :
    request.headers =
      (c.draft template (some access) default context).userLine ++ access.headers ++
        c.ownHeaders context ++ c.typeLine access context request.body ++ signIn access := by
  obtain ⟨hlines, hbody⟩ := Draft.lines_of_toRequest h
  have hdraft : (c.draft template (some access) default context).headers =
      withContentType (c.bodyText context) (access.headers ++ c.ownHeaders context) ++ signIn access := rfl
  rw [hlines, hdraft, withContentType_eq, hbody]
  simp only [List.append_assoc]
  rfl

theorem valuesOf_of_toRequest
    (h : (c.draft template (some access) default context).toRequest = .ok request) (name : String) :
    valuesOf name request.headers =
      valuesOf name (c.draft template (some access) default context).userLine ++
        valuesOf name access.headers ++ c.given context name ++
        valuesOf name (c.typeLine access context request.body) ++ valuesOf name (signIn access) := by
  rw [headers_of_toRequest h, valuesOf_append, valuesOf_append, valuesOf_append, valuesOf_append,
    valuesOf_ownHeaders]

theorem valuesOf_typeLine_of_given {name : String} (hgiven : c.given context name ≠ [])
    (body : Option String) : valuesOf name (c.typeLine access context body) = [] := by
  rw [valuesOf_eq_nil_iff]
  intro h hh
  rw [typeLine] at hh
  split at hh
  next hnone =>
    rw [List.mem_singleton.1 hh, Bool.eq_false_iff]
    intro hname
    -- With that name the node would give the type of the body itself.
    rw [← valuesOf_ownHeaders, ← valuesOf_congr hname, valuesOf_ownHeaders] at hgiven
    exact hgiven hnone.2.2
  next => cases hh

theorem valuesOf_typeLine_of_ne {name : String} (hname : sameName contentType name = false)
    (body : Option String) : valuesOf name (c.typeLine access context body) = [] := by
  rw [valuesOf_eq_nil_iff, typeLine]
  intro h hh
  split at hh
  · rwa [List.mem_singleton.1 hh]
  · cases hh

theorem valuesOf_of_given
    (h : (c.draft template (some access) default context).toRequest = .ok request) {name : String}
    (hgiven : c.given context name ≠ []) :
    valuesOf name request.headers =
      valuesOf name ((c.draft template (some access) default context).userLine ++ access.headers) ++
        c.given context name ++ valuesOf name (signIn access) := by
  rw [valuesOf_of_toRequest h, valuesOf_typeLine_of_given hgiven, List.append_nil, valuesOf_append]

theorem valuesOf_of_not_given
    (h : (c.draft template (some access) default context).toRequest = .ok request) {name : String}
    (hgiven : c.given context name = []) (hname : sameName contentType name = false) :
    valuesOf name request.headers =
      valuesOf name ((c.draft template (some access) default context).userLine ++ access.headers) ++
        valuesOf name (signIn access) := by
  rw [valuesOf_of_toRequest h, hgiven, valuesOf_typeLine_of_ne hname, valuesOf_append,
    List.append_nil, List.append_nil]

theorem valuesOf_contentType
    (h : (c.draft template (some access) default context).toRequest = .ok request) :
    valuesOf contentType request.headers =
      if request.body.isSome ∧ valuesOf contentType access.headers = [] ∧
          c.given context contentType = [] then
        ["application/json"]
      else valuesOf contentType access.headers ++ c.given context contentType := by
  have huser : valuesOf contentType (c.draft template (some access) default context).userLine = [] := by
    refine valuesOf_eq_nil_iff.2 fun line hline => ?_
    rw [Draft.name_of_mem_userLine hline]
    decide
  have hsignIn : valuesOf contentType (signIn access) = [] := by
    refine valuesOf_eq_nil_iff.2 fun line hline => ?_
    rcases name_of_mem_signIn hline with hname | hname <;> rw [hname] <;> decide
  rw [valuesOf_of_toRequest h, huser, hsignIn, List.nil_append, List.append_nil, typeLine]
  split
  next hdefault =>
    rw [hdefault.2.1, hdefault.2.2]
    decide
  next => exact List.append_nil _

end RequestConfig

/-! ## The lines that are sent -/

open Http RequestConfig in
/-- Which values a node that makes requests with a credential sends.  For a header that it gives values
itself, those of the URL and of the credential are sent with them, so that its own are the only ones just if
there are no others.  A header that it leaves alone has the values of the URL and the credential.  The type
of a body is added where there is a body and neither the credential nor the node says its type. -/
theorem Node.valuesOf_of_plan {s : Services} {n : Node} {context : Context} {c : RequestConfig}
    {template : String} {access : ApiAccess}
    (hread : NodeConfig.ofNode n s.config.engine.triggerPrefix = .ok (.request c))
    (hurl : c.url? = some template) (haccess : c.access s = .ok (some access)) :
    ∃ d, n.plan s context = .request d output ∧ ∀ request, d.toRequest = .ok request →
      (∀ name, c.given context name ≠ [] →
        valuesOf name request.headers = valuesOf name (d.userLine ++ access.headers) ++
          c.given context name ++ valuesOf name (signIn access) ∧
        (valuesOf name request.headers = c.given context name ↔
          valuesOf name (d.userLine ++ access.headers) = [] ∧ valuesOf name (signIn access) = [])) ∧
      (∀ name, c.given context name = [] → sameName contentType name = false →
        valuesOf name request.headers =
          valuesOf name (d.userLine ++ access.headers) ++ valuesOf name (signIn access)) ∧
      valuesOf contentType request.headers =
        if request.body.isSome ∧ valuesOf contentType access.headers = [] ∧
            c.given context contentType = [] then
          ["application/json"]
        else valuesOf contentType access.headers ++ c.given context contentType := by
  refine ⟨_, plan_of_request hread hurl haccess, fun request hrequest => ⟨fun name hgiven => ?_,
    fun name => valuesOf_of_not_given hrequest, valuesOf_contentType hrequest⟩⟩
  have hvalues := valuesOf_of_given hrequest hgiven
  refine ⟨hvalues, ?_⟩
  rw [hvalues]
  constructor
  · intro heq
    -- Around the values of the node there is no room for others.
    have hlength := congrArg List.length heq
    simp only [List.length_append] at hlength
    exact ⟨List.length_eq_zero_iff.1 (by omega), List.length_eq_zero_iff.1 (by omega)⟩
  · rintro ⟨hbefore, hafter⟩
    rw [hbefore, hafter, List.nil_append, List.append_nil]

/-- A node that books for a guest, with header lines of its own. -/
def guestNode : Node :=
  ((bookingNode guestUrl).configure "headers"
      (.object [("X-Guest", .string "\x7b\x7bid\x7d\x7d"), ("x-tenant", .string "other")])).configure
    "body" (.string "arrived")

def guestConfig : RequestConfig :=
  { bookingConfig guestUrl with
    headers := [("X-Guest", .string "\x7b\x7bid\x7d\x7d"), ("x-tenant", .string "other")]
    body := some (.string "arrived") }

def guestContext : Context := ⟨[("id", .ofNat 42)], [], [], []⟩

def guestDraft : Http.Draft :=
  guestConfig.draft guestUrl (some bookings) bookingServices.config.engine.httpTimeout guestContext

theorem guestNode_read : NodeConfig.ofNode guestNode "trigger_" = .ok (.request guestConfig) := by
  with_unfolding_all rfl

theorem guestConfig_url? : guestConfig.url? = some guestUrl := by decide +kernel

theorem guestNode_plan :
    guestNode.plan bookingServices guestContext = .request guestDraft RequestConfig.output :=
  Node.plan_of_request guestNode_read guestConfig_url? (bookingConfig_access guestUrl)

theorem guestDraft_toRequest :
    ∃ request, guestDraft.toRequest = .ok request ∧
      request.headers = [("X-Tenant", "acme"), ("X-Guest", "42"), ("x-tenant", "other"),
        ("Content-Type", "application/json"), ("Authorization", "Bearer tok")] := by
  rw [← Checks.map_eq_ok_iff]
  decide +kernel

open Http RequestConfig in
theorem Node.valuesOf_of_plan_guest :
    ∃ d request, guestNode.plan bookingServices guestContext = .request d output ∧
      d.toRequest = .ok request ∧ valuesOf "x-guest" request.headers = ["42"] ∧
      valuesOf "authorization" request.headers = ["Bearer tok"] ∧
      valuesOf contentType request.headers = ["application/json"] := by
  obtain ⟨d, hplan, hvalues⟩ := @valuesOf_of_plan bookingServices guestNode guestContext guestConfig
    guestUrl bookings guestNode_read guestConfig_url? (bookingConfig_access guestUrl)
  obtain rfl : d = guestDraft := (Plan.request.inj (hplan.symm.trans guestNode_plan)).1
  obtain ⟨request, hrequest, -⟩ := guestDraft_toRequest
  have hbody : request.body = some "arrived" := by
    rw [(Draft.lines_of_toRequest hrequest).2]
    decide +kernel
  obtain ⟨hgiven, hother, htype⟩ := hvalues request hrequest
  have hguest : guestConfig.given guestContext "x-guest" = ["42"] := by decide +kernel
  refine ⟨guestDraft, request, hplan, hrequest, ?_, ?_, ?_⟩
  · rw [((hgiven "x-guest" (by rw [hguest]; decide)).2).2 (by decide +kernel), hguest]
  · rw [hother "authorization" (by decide +kernel) (by decide)]
    decide +kernel
  · rw [htype, hbody]
    decide +kernel

open Http RequestConfig in
/-- A header of the credential goes out beside that of the node. -/
theorem Node.valuesOf_of_plan_tenant :
    ∃ d request, guestNode.plan bookingServices guestContext = .request d output ∧
      d.toRequest = .ok request ∧ guestConfig.given guestContext "X-Tenant" = ["other"] ∧
      valuesOf "X-Tenant" request.headers = ["acme", "other"] := by
  obtain ⟨request, hrequest, hlines⟩ := guestDraft_toRequest
  refine ⟨guestDraft, request, guestNode_plan, hrequest, by decide +kernel, ?_⟩
  rw [hlines]
  decide

end Automation
