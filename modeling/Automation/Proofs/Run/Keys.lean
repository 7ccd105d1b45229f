import Automation.Proofs.Run.Questions
import Automation.Proofs.Store.Credentials

/-!
# Keys and endpoints

A node that asks a language model may name a credential, and a key may stand in the node itself.  With the
key of the credential go its endpoint and its organization.  With the other key goes neither, whatever the
credential says and whatever is wrong with it, so no key is sent where it does not belong.

`AgentConfig.Grants` and `AgentConfig.Inline` say when there is a key of the one kind and of the other, and
`AgentConfig.callModel_cases` what settings come of them.  A node with neither key asks nothing
(`AgentConfig.keys_of_perform`).
-/

namespace Automation

structure ModelConfig.GoesWith (m : ModelConfig) (endpoint : Option String) (access : ModelAccess) :
    Prop where
  key : m.apiKey = some access.apiKey
  base : (∃ url, access.baseUrl = some url ∧ url ≠ "" ∧ m.baseUrl = some url) ∨
    (∀ url, access.baseUrl = some url → url = "") ∧ m.baseUrl = endpoint
  headers : ∀ name value, (name, value) ∈ m.extraHeaders ↔
    name = AgentConfig.organizationHeader ∧ access.organization = some value ∧ value ≠ ""

structure ModelConfig.StandsAlone (m : ModelConfig) (endpoint : Option String) (key : String) :
    Prop where
  key : m.apiKey = some key
  base : m.baseUrl = endpoint
  headers : m.extraHeaders = []

theorem present_eq_some_iff {o : Option String} {t : String} :
    present o = some t ↔ ∃ s, o = some s ∧ t.toList = Text.trim s.toList ∧ t ≠ "" := by
  cases o with
  | none => simp [present]
  | some s =>
    have hempty : (Text.trim s.toList).isEmpty = true ↔ String.ofList (Text.trim s.toList) = "" := by
      rw [List.isEmpty_iff, ← String.toList_inj, String.toList_ofList]
      rfl
    simp only [present, Option.bind_some, Option.some.injEq, exists_eq_left']
    by_cases hs : (Text.trim s.toList).isEmpty = true
    · rw [if_pos hs]
      refine iff_of_false nofun fun h => h.2 ?_
      rw [← String.ofList_toList (s := t), h.1]
      exact hempty.1 hs
    · rw [if_neg hs, Option.some.injEq]
      constructor
      · intro h
        subst h
        exact ⟨String.toList_ofList, fun h => hs (hempty.2 h)⟩
      · intro h
        rw [← h.1, String.ofList_toList]

theorem Services.resolve_eq_ok_iff {α : Type} {s : Services} {p : Payload α} {id : String} {a : α} :
    s.resolve p id = .ok a ↔ ∃ c, s.fetch id = .ok c ∧ c.payload p = .ok a :=
  Checks.bind_eq_ok_iff

namespace AgentConfig

/-- The credential that a node names can be had, it is one for language models, its payload decodes, and
there is a key in it. -/
def Grants (c : AgentConfig) (s : Services) (access : ModelAccess) : Prop :=
  ∃ id credential, c.credential? = some id ∧ s.fetch id = .ok credential ∧ credential.type = .openAi ∧
    ModelAccess.decoder.ofText credential.config.toList = .ok access ∧ access.apiKey ≠ ""

/-- A key that stands in a node, without the blanks around it. -/
def Inline (c : AgentConfig) (key : String) : Prop :=
  ∃ raw, c.apiKey = some raw ∧ key.toList = Text.trim raw.toList ∧ key ≠ ""

variable {c : AgentConfig} {s : Services} {access : ModelAccess}

theorem grants_iff :
    c.Grants s access ↔
      ∃ id, c.credential? = some id ∧ s.resolve .model id = .ok access ∧ access.apiKey ≠ "" := by
  simp only [Grants, Services.resolve_eq_ok_iff, Credential.payload_eq_ok_iff]
  constructor
  · rintro ⟨id, credential, hid, hfetch, htype, hdecode, hkey⟩
    exact ⟨id, hid, ⟨credential, hfetch, htype, hdecode⟩, hkey⟩
  · rintro ⟨id, hid, ⟨credential, hfetch, htype, hdecode⟩, hkey⟩
    exact ⟨id, credential, hid, hfetch, htype, hdecode, hkey⟩

theorem access?_eq_some_iff : c.access? s = some access ↔ c.Grants s access := by
  rw [grants_iff, access?]
  cases c.credential? with
  | none => simp
  | some id =>
    rw [Option.map_some]
    cases hresolve : s.resolve .model id with
    | error e => simp [hresolve]
    | ok found =>
      dsimp only
      by_cases hempty : found.apiKey = ""
      · rw [hempty]
        refine iff_of_false nofun ?_
        intro h
        obtain ⟨id', hid, hfound, hkey⟩ := h
        obtain rfl := Option.some.inj hid
        obtain rfl := Except.ok.inj (hresolve.symm.trans hfound)
        exact hkey hempty
      · have hkey : ¬found.apiKey.isEmpty = true := fun h => hempty (String.isEmpty_iff.1 h)
        rw [if_neg hkey, Option.some.injEq]
        constructor
        · intro h
          rw [← h]
          exact ⟨id, rfl, hresolve, hempty⟩
        · intro h
          obtain ⟨id', hid, hfound, -⟩ := h
          obtain rfl := Option.some.inj hid
          exact Except.ok.inj (hresolve.symm.trans hfound)

theorem access?_eq_none_iff : c.access? s = none ↔ ∀ access, ¬c.Grants s access := by
  simp only [← access?_eq_some_iff, Option.eq_none_iff_forall_ne_some, ne_eq]

theorem inlineKey?_eq_some_iff {key : String} : c.inlineKey? = some key ↔ c.Inline key :=
  present_eq_some_iff

theorem inlineKey?_eq_none_iff : c.inlineKey? = none ↔ ∀ key, ¬c.Inline key := by
  simp only [← inlineKey?_eq_some_iff, Option.eq_none_iff_forall_ne_some, ne_eq]

/-! ## Settings -/

theorem filter_cases (o : Option String) :
    (∃ t, o = some t ∧ t ≠ "" ∧ o.filter (!·.isEmpty) = some t) ∨
      (∀ t, o = some t → t = "") ∧ o.filter (!·.isEmpty) = none := by
  cases o with
  | none => exact .inr ⟨nofun, rfl⟩
  | some t =>
    by_cases hempty : t = ""
    · refine .inr ⟨?_, by simp [hempty]⟩
      intro t' h
      rw [← Option.some.inj h, hempty]
    · exact .inl ⟨t, rfl, hempty, by simp [hempty]⟩

theorem goesWith_withAccess (c : AgentConfig) (s : Services) (access : ModelAccess) :
    (withAccess (c.baseModel s) access).GoesWith s.config.llm.baseUrl access where
  key := rfl
  base := by
    have hbase : (withAccess (c.baseModel s) access).baseUrl =
        (access.baseUrl.filter (!·.isEmpty)).or s.config.llm.baseUrl := rfl
    obtain ⟨url, hurl, hne, hkept⟩ | ⟨hempty, hdropped⟩ := filter_cases access.baseUrl
    · exact .inl ⟨url, hurl, hne, by rw [hbase, hkept, Option.some_or]⟩
    · exact .inr ⟨hempty, by rw [hbase, hdropped, Option.none_or]⟩
  headers name value := by
    have hbase : (c.baseModel s).extraHeaders = [] := rfl
    rw [withAccess, hbase]
    obtain ⟨organization, heq, hne, hkept⟩ | ⟨hempty, hdropped⟩ := filter_cases access.organization
    · rw [hkept, heq, Option.some.injEq]
      show (name, value) ∈ [(organizationHeader, organization)] ↔ _
      rw [List.mem_singleton, Prod.mk.injEq, eq_comm (a := value)]
      exact and_congr_right fun _ => ⟨fun h => ⟨h, h ▸ hne⟩, fun h => h.1⟩
    · rw [hdropped]
      refine iff_of_false List.not_mem_nil ?_
      intro h
      exact h.2.2 (hempty value h.2.1)

theorem standsAlone_baseModel (c : AgentConfig) (s : Services) (key : String) :
    ({ c.baseModel s with apiKey := some key } : ModelConfig).StandsAlone s.config.llm.baseUrl key :=
  ⟨rfl, rfl, rfl⟩

/-- With the credential its own settings, without it those of the inline key, and with neither none. -/
theorem callModel_cases (c : AgentConfig) (s : Services) :
    (∃ access model, c.Grants s access ∧ model.GoesWith s.config.llm.baseUrl access ∧
        c.callModel s = .ok model) ∨
      (∀ access, ¬c.Grants s access) ∧
        ((∃ key model, c.Inline key ∧ model.StandsAlone s.config.llm.baseUrl key ∧
            c.callModel s = .ok model) ∨
          (∀ key, ¬c.Inline key) ∧
            c.callModel s = .error (.configuration "AI agent requires API key")) := by
  cases haccess : c.access? s with
  | some access =>
    refine .inl ⟨access, _, access?_eq_some_iff.1 haccess, goesWith_withAccess c s access, ?_⟩
    rw [callModel, haccess]
  | none =>
    refine .inr ⟨access?_eq_none_iff.1 haccess, ?_⟩
    cases hkey : c.inlineKey? with
    | some key =>
      refine .inl ⟨key, _, inlineKey?_eq_some_iff.1 hkey, standsAlone_baseModel c s key, ?_⟩
      rw [callModel, haccess, hkey]
    | none =>
      refine .inr ⟨inlineKey?_eq_none_iff.1 hkey, ?_⟩
      rw [callModel, haccess, hkey]

/-! ## What is asked -/

/-- With settings for the call a node asks for nothing else, and does so if there is a message. -/
theorem questions_of_callModel {model : ModelConfig} (h : c.callModel s = .ok model)
    (context : Context) :
    (∀ q ∈ (c.plan s context).questions, ∃ messages, q = .completion model messages) ∧
      ∀ messages, c.messages s context = .ok messages →
        (c.plan s context).questions = [.completion model messages] := by
  rw [plan, h]
  cases c.messages s context with
  | error e =>
    refine ⟨fun q hq => absurd hq List.not_mem_nil, ?_⟩
    intro messages h
    cases h
  | ok messages =>
    refine ⟨fun q hq => ⟨messages, List.mem_singleton.1 hq⟩, ?_⟩
    intro messages' h
    rw [Except.ok.inj h]
    rfl

/-- What a node asks a language model for, it asks with the key, the endpoint and the organization of its
credential, if that has a key, and else with the inline key at the endpoint of the settings and in nobody's
name.  If there is a key of either kind, and a message, it does ask; if there is none it fails over its
configuration and asks nothing. -/
theorem keys_of_perform {σ : Type} (c : AgentConfig) (s : Services) (w : World σ) (context : Context)
    (world : σ) :
    ∃ questions,
      (c.plan s context).perform w.recorded context (world, []) =
        (((c.plan s context).perform w context world).1,
          ((c.plan s context).perform w context world).2, questions) ∧
      (∀ q ∈ questions, ∃ model messages, q = .completion model messages ∧
        ((∃ access, c.Grants s access ∧ model.GoesWith s.config.llm.baseUrl access) ∨
          (∀ access, ¬c.Grants s access) ∧
            ∃ key, c.Inline key ∧ model.StandsAlone s.config.llm.baseUrl key)) ∧
      (∀ messages, c.messages s context = .ok messages →
        (∃ access, c.Grants s access) ∨ (∃ key, c.Inline key) →
        ∃ model, questions = [.completion model messages]) ∧
      ((∀ access, ¬c.Grants s access) → (∀ key, ¬c.Inline key) →
        questions = [] ∧
          ((c.plan s context).perform w context world).1.1 =
            .error (.configuration "AI agent requires API key")) := by
  refine ⟨_, Plan.perform_recorded w context world [] (c.plan s context), ?_⟩
  rw [List.nil_append]
  obtain ⟨access, model, haccess, hgoes, hmodel⟩ | ⟨hnone, h⟩ := c.callModel_cases s
  · obtain ⟨hall, hsent⟩ := questions_of_callModel hmodel context
    refine ⟨fun q hq => ?_, fun messages h _ => ⟨model, hsent messages h⟩,
      fun hno => absurd haccess (hno access)⟩
    obtain ⟨messages, hq⟩ := hall q hq
    exact ⟨model, messages, hq, .inl ⟨access, haccess, hgoes⟩⟩
  obtain ⟨key, model, hkey, halone, hmodel⟩ | ⟨hnokey, hmodel⟩ := h
  · obtain ⟨hall, hsent⟩ := questions_of_callModel hmodel context
    refine ⟨fun q hq => ?_, fun messages h _ => ⟨model, hsent messages h⟩,
      fun _ hno => absurd hkey (hno key)⟩
    obtain ⟨messages, hq⟩ := hall q hq
    exact ⟨model, messages, hq, .inr ⟨hnone, key, hkey, halone⟩⟩
  · have hplan : c.plan s context = .settled (.error (.configuration "AI agent requires API key")) := by
      rw [plan, hmodel]
    rw [hplan]
    refine ⟨fun q hq => absurd hq List.not_mem_nil, fun _ _ h => ?_, fun _ _ => ⟨rfl, rfl⟩⟩
    obtain ⟨access, h⟩ | ⟨key, h⟩ := h
    · exact absurd h (hnone access)
    · exact absurd h (hnokey key)

end AgentConfig

end Automation
