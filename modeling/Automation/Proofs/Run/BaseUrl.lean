import Automation.Proofs.Node.Config
import Automation.Proofs.Text.Split
import Automation.Run.Dispatch
import Mathlib.Data.List.TakeWhile

/-!
# URLs below the base of a credential

A credential may hold a base for relative URLs.  `Joins` says what is to come of a base and a relative URL,
and `IsAbsolute` which URLs are to stay as they are: those that begin with a scheme and `://`.

A URL counts as absolute as soon as `://` occurs anywhere in it, after the variables have been put in.  So a
relative URL goes to the base unless its path or its query has `://` in it, and then it is taken as it is.
`Node.url_of_plan` says that nothing else goes wrong.
-/

namespace Automation

namespace RequestConfig

/-! ## A base and a path -/

/-- A base and a path put together: the base without the slashes at its end, one slash, and the path
without the slashes at its beginning. -/
def Joins (base path url : List Char) : Prop :=
  ∃ b p m n, base = b ++ List.replicate m '/' ∧ b.getLast? ≠ some '/' ∧
    path = List.replicate n '/' ++ p ∧ p.head? ≠ some '/' ∧ url = b ++ '/' :: p

theorem dropWhile_slash_eq_iff {s r : List Char} :
    s.dropWhile (· = '/') = r ↔ ∃ n, s = List.replicate n '/' ++ r ∧ r.head? ≠ some '/' := by
  constructor
  · rintro rfl
    have hslashes : ∀ c ∈ s.takeWhile (· = '/'), c = '/' := fun c hc => by
      simpa using List.mem_takeWhile_imp hc
    refine ⟨(s.takeWhile (· = '/')).length, ?_, fun hhead => ?_⟩
    · rw [← List.eq_replicate_of_mem hslashes, List.takeWhile_append_dropWhile]
    · have hnot := List.head?_dropWhile_not (· = '/') s
      rw [hhead] at hnot
      cases hnot
  · rintro ⟨n, rfl, hhead⟩
    rw [List.dropWhile_append_of_pos fun c hc => decide_eq_true (List.eq_of_mem_replicate hc)]
    cases r with
    | nil => rfl
    | cons c r => exact List.dropWhile_cons_of_neg fun hc => hhead (congrArg some (of_decide_eq_true hc))

theorem joins_iff {base path url : List Char} : Joins base path url ↔ url = joinUrl base path := by
  constructor
  · rintro ⟨b, p, m, n, rfl, hb, hpath, hp, rfl⟩
    have hbase : (b ++ List.replicate m '/').reverse.dropWhile (· = '/') = b.reverse := by
      refine dropWhile_slash_eq_iff.2 ⟨m, ?_, by rwa [List.head?_reverse]⟩
      rw [List.reverse_append, List.reverse_replicate]
    rw [joinUrl, hbase, List.reverse_reverse, dropWhile_slash_eq_iff.2 ⟨n, hpath, hp⟩]
  · rintro rfl
    obtain ⟨m, hbase, hb⟩ := dropWhile_slash_eq_iff.1 (Eq.refl (base.reverse.dropWhile (· = '/')))
    obtain ⟨n, hpath, hp⟩ := dropWhile_slash_eq_iff.1 (Eq.refl (path.dropWhile (· = '/')))
    refine ⟨_, _, m, n, ?_, ?_, hpath, hp, rfl⟩
    · have hreverse := congrArg List.reverse hbase
      rwa [List.reverse_reverse, List.reverse_append, List.reverse_replicate] at hreverse
    · rwa [List.getLast?_reverse]

/-- A path is what comes of it and a base only if there is nothing but slashes in the base. -/
theorem joins_self_iff {base path : List Char} :
    Joins base path path ↔
      (∀ c ∈ base, c = '/') ∧ ∃ p, path = '/' :: p ∧ p.head? ≠ some '/' := by
  constructor
  · rintro ⟨b, p, m, n, rfl, hb, hpath, hp, heq⟩
    have hslashes : List.replicate n '/' = b ++ ['/'] := by
      have hend : List.replicate n '/' ++ p = b ++ ['/'] ++ p := by
        rw [← hpath, heq, List.append_assoc]
        rfl
      exact List.append_cancel_right hend
    have hb : b = [] := by
      rcases List.eq_nil_or_concat b with rfl | ⟨b', c, rfl⟩
      · rfl
      · have hc : c = '/' := List.eq_of_mem_replicate (n := n) (hslashes ▸ by simp)
        exact absurd (by simp [hc]) hb
    subst hb
    exact ⟨fun c hc => List.eq_of_mem_replicate hc, p, heq, hp⟩
  · rintro ⟨hbase, p, rfl, hp⟩
    exact ⟨[], p, base.length, 1, List.eq_replicate_of_mem hbase, nofun, rfl, hp, rfl⟩

/-! ## Absolute URLs -/

/-- Whether a URL begins with a scheme and `://`. -/
def IsAbsolute (url : List Char) : Prop :=
  ∃ c scheme rest, url = c :: scheme ++ "://".toList ++ rest ∧ c.isAlpha = true ∧
    ∀ d ∈ scheme, d.isAlphanum = true ∨ d ∈ "+-.".toList

theorem IsAbsolute.separator {url : List Char} (h : IsAbsolute url) : "://".toList <:+: url := by
  obtain ⟨c, scheme, rest, rfl, -, -⟩ := h
  exact ⟨c :: scheme, rest, rfl⟩

variable {access : ApiAccess} {url : List Char}

theorem absoluteUrl_of_separator (h : "://".toList <:+: url) : absoluteUrl (some access) url = url :=
  if_pos (.inl (Text.contains_iff.2 h))

theorem absoluteUrl_of_no_separator (hbase : access.baseUrl ≠ "") (h : ¬"://".toList <:+: url) :
    absoluteUrl (some access) url = joinUrl access.baseUrl.toList url := by
  refine if_neg fun hdecide => hdecide.elim (fun hcontains => h (Text.contains_iff.1 hcontains)) ?_
  exact fun hempty => hbase (String.isEmpty_iff.1 hempty)

/-! ## Methods -/

theorem verb_ne_empty (c : RequestConfig) : c.verb ≠ "" := by
  unfold verb
  split
  case h_1 m hm =>
    obtain ⟨s, -, hs⟩ := Option.bind_eq_some_iff.1 hm
    dsimp only at hs
    split at hs
    · cases hs
    · next hne =>
      obtain rfl := Option.some.inj hs
      exact fun h => hne (List.isEmpty_iff.2 (Text.upper_eq_nil_iff.1 (by simpa using h)))
  case h_2 => decide

/-- The method of a configuration that has been checked can be sent. -/
theorem isMethod_verb {c : RequestConfig} (h : c.check = .ok ()) : Http.isMethod c.verb = true := by
  have hletters : c.verb.toList.all Char.isAlpha = true := by
    rw [check] at h
    split at h
    · cases h
    · by_contra hother
      rw [if_pos (by simpa using hother)] at h
      cases h
  rw [Http.isMethod, Http.isName, Bool.and_eq_true]
  refine ⟨?_, List.all_eq_true.2 fun d hd => ?_⟩
  · simpa using c.verb_ne_empty
  · rw [Http.isNameChar, Char.isAlphanum, List.all_eq_true.1 hletters d hd]
    rfl

end RequestConfig

/-! ## The request of a node -/

theorem Node.plan_of_request {s : Services} {n : Node} {context : Context} {c : RequestConfig}
    {template : String} {access : ApiAccess}
    (hread : NodeConfig.ofNode n s.config.engine.triggerPrefix = .ok (.request c))
    (hurl : c.url? = some template) (haccess : c.access s = .ok (some access)) :
    n.plan s context =
      .request (c.draft template (some access) s.config.engine.httpTimeout context)
        RequestConfig.output := by
  have hmethod : Http.isMethod c.verb = true :=
    RequestConfig.isMethod_verb (NodeConfig.readFrom_of_ofNode hread).2
  rw [plan, hread]
  show c.plan s context = _
  simp only [RequestConfig.plan, hurl, hmethod, haccess, if_true]

open RequestConfig in
/-- A node that makes requests with a credential makes them below the base of the credential, unless the
URL is absolute, which is then taken as it is.  A relative URL is also taken as it is if `://` occurs in
it, and so does not go to the base, except where that would come to the same: where the base is nothing but
slashes, and the URL begins with one. -/
theorem Node.url_of_plan {s : Services} {n : Node} {context : Context} {c : RequestConfig}
    {template : String} {access : ApiAccess}
    (hread : NodeConfig.ofNode n s.config.engine.triggerPrefix = .ok (.request c))
    (hurl : c.url? = some template) (haccess : c.access s = .ok (some access))
    (hbase : access.baseUrl ≠ "") :
    let url := (context.interpolate template).toList
    ∃ d, n.plan s context = .request d output ∧
      (IsAbsolute url → d.url.toList = url) ∧
      (¬IsAbsolute url → "://".toList <:+: url → d.url.toList = url) ∧
      (¬IsAbsolute url →
        (Joins access.baseUrl.toList url d.url.toList ↔
          ¬"://".toList <:+: url ∨
            (∀ c ∈ access.baseUrl.toList, c = '/') ∧ ∃ p, url = '/' :: p ∧ p.head? ≠ some '/')) := by
  intro url
  refine ⟨_, plan_of_request hread hurl haccess, ?_⟩
  have hdraft : (c.draft template (some access) s.config.engine.httpTimeout context).url.toList =
      absoluteUrl (some access) url := String.toList_ofList ..
  rw [hdraft]
  refine ⟨fun h => absoluteUrl_of_separator h.separator, fun _ h => absoluteUrl_of_separator h, fun _ => ?_⟩
  by_cases hinfix : "://".toList <:+: url
  · rw [absoluteUrl_of_separator hinfix, joins_self_iff]
    exact ⟨.inr, fun h => h.resolve_left fun hnot => hnot hinfix⟩
  · rw [absoluteUrl_of_no_separator hbase hinfix]
    exact iff_of_true (joins_iff.2 rfl) (.inl hinfix)

def bookings : ApiAccess := ⟨"http://api.test/v1/", [("X-Tenant", "acme")], .bearer, "tok"⟩

def bookingServices : Services := ⟨.default, fun id => .ok (.new id "desk" .api bookings)⟩

def bookingNode (url : String) : Node :=
  ((Node.new "book" "http_request").configure "url" (.string url)).configure "credential_id"
    (.string "api")

def bookingConfig (url : String) : RequestConfig := ⟨none, some url, [], [], none, none, some "api"⟩

theorem bookingConfig_access (url : String) :
    (bookingConfig url).access bookingServices = .ok (some bookings) := by
  have hresolve : bookingServices.resolve .api "api" = .ok bookings := by decide +kernel
  show (bookingServices.resolve .api "api").map some = _
  rw [hresolve]
  rfl

def guestUrl : String := "/guests/\x7b\x7bid\x7d\x7d"

def onwardUrl : String := "/go?next=\x7b\x7bpage\x7d\x7d"

open RequestConfig in
theorem Node.url_of_plan_guest :
    let context : Context := ⟨[("id", .ofNat 42)], [], [], []⟩
    ∃ d, (bookingNode guestUrl).plan bookingServices context = .request d output ∧
      d.url = "http://api.test/v1/guests/42" := by
  intro context
  have hread : NodeConfig.ofNode (bookingNode guestUrl) "trigger_" =
      .ok (.request (bookingConfig guestUrl)) := by
    with_unfolding_all rfl
  have hset : (bookingConfig guestUrl).url? = some guestUrl := by decide +kernel
  obtain ⟨d, hplan, -, -, hjoins⟩ := @url_of_plan bookingServices (bookingNode guestUrl) context
    (bookingConfig guestUrl) guestUrl bookings hread hset (bookingConfig_access guestUrl) (by decide)
  have hrelative : ¬"://".toList <:+: (context.interpolate guestUrl).toList := by
    rw [← Text.contains_iff]
    decide +kernel
  have hurl := joins_iff.1 ((hjoins fun h => hrelative h.separator).2 (.inl hrelative))
  refine ⟨d, hplan, String.toList_inj.1 (hurl.trans ?_)⟩
  decide +kernel

open RequestConfig in
/-- A variable in the query can keep a relative URL from the base. -/
theorem Node.url_of_plan_onward :
    let context : Context := ⟨[("page", .string "https://x.test/")], [], [], []⟩
    ∃ d, (bookingNode onwardUrl).plan bookingServices context = .request d output ∧
      d.url = "/go?next=https://x.test/" ∧ ¬IsAbsolute d.url.toList ∧
      ¬Joins bookings.baseUrl.toList d.url.toList d.url.toList := by
  intro context
  have hread : NodeConfig.ofNode (bookingNode onwardUrl) "trigger_" =
      .ok (.request (bookingConfig onwardUrl)) := by
    with_unfolding_all rfl
  have hset : (bookingConfig onwardUrl).url? = some onwardUrl := by decide +kernel
  refine ⟨_, plan_of_request hread hset (bookingConfig_access onwardUrl), ?_⟩
  have hurl : ((bookingConfig onwardUrl).draft onwardUrl (some bookings)
      bookingServices.config.engine.httpTimeout context).url = "/go?next=https://x.test/" := by
    decide +kernel
  rw [hurl]
  refine ⟨rfl, ?_, fun h => ?_⟩
  · rintro ⟨c, scheme, rest, heq, hc, -⟩
    obtain rfl : '/' = c := (List.cons.inj heq).1
    cases hc
  · exact absurd ((joins_self_iff.1 h).1 'h' (by decide)) (by decide)

end Automation
