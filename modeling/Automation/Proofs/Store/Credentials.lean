import Automation.Proofs.Checks
import Automation.Proofs.Credential.Wire
import Automation.Proofs.Store.Table
import Automation.Run.Services
import Mathlib.Data.List.Induction

/-!
# Two stores of credentials

Credentials are held in memory by id, or saved as rows.  `resolve_stores` says that it does not matter
which: after the same credentials have been put in both, an id is resolved alike.  It is not found if
nothing was put under it, and a failure of configuration if the credential put last under it has
another type or a payload that does not decode; otherwise it is the payload, and in particular the
payload that the credential was made with.

Each store is compared with the last credential of an id (`lastOf`).  In memory it is the one found
(`get?_ofList`).  A row has the moments of saves besides, which say nothing about the payload, so rows
are compared without them (`find?_saveCredentials`).
-/

namespace Automation

def lastOf (cs : List Credential) (id : String) : Option Credential :=
  (cs.filter fun c => c.id = id).getLast?

theorem lastOf_concat (cs : List Credential) (c : Credential) (id : String) :
    lastOf (cs ++ [c]) id = if c.id = id then some c else lastOf cs id := by
  by_cases h : c.id = id
  · rw [if_pos h, lastOf, List.filter_append, List.filter_cons_of_pos (by simp [h]), List.filter_nil,
      List.getLast?_concat]
  · rw [if_neg h, lastOf, List.filter_append, List.filter_cons_of_neg (by simp [h]), List.filter_nil,
      List.append_nil, lastOf]

namespace CredentialShelf

theorem ofList_concat (cs : List Credential) (c : Credential) :
    ofList (cs ++ [c]) = put c (ofList cs) := List.foldl_append

theorem get?_ofList (cs : List Credential) (id : String) :
    Keyed.get? (ofList cs) id = lastOf cs id := by
  induction cs using List.reverseRecOn with
  | nil => rfl
  | append_singleton cs c ih => rw [ofList_concat, put, Keyed.get?_insert, lastOf_concat, ih]

end CredentialShelf

/-! ## Rows -/

namespace CredentialRow

def timeless (r : CredentialRow) : CredentialRow := { r with createdAt := "", updatedAt := "" }

theorem timeless_since (old new : CredentialRow) : (since old new).timeless = new.timeless := rfl

end CredentialRow

/-- The row of a credential but for the moments of its saves. -/
def Credential.row (c : Credential) : CredentialRow :=
  ⟨c.id, c.agentId, c.name, c.type.name, c.config, "", ""⟩

theorem CredentialRow.exists_credential {r : CredentialRow} {c : Credential}
    (h : r.timeless = c.row) :
    ∃ created updated, r.credential = .ok { c with createdAt := created, updatedAt := updated } := by
  obtain ⟨id, agentId, name, type, config, createdAt, updatedAt⟩ := r
  obtain ⟨rfl, rfl, rfl, rfl, rfl⟩ : c.id = id ∧ c.agentId = agentId ∧ c.name = name ∧
      c.type.name = type ∧ c.config = config := by
    simp only [timeless, Credential.row, CredentialRow.mk.injEq] at h
    simp [h]
  have htype : (Json.Decoder.variant CredentialType.names none).ofValue (.string c.type.name) =
      .ok c.type := by
    rw [Json.Decoder.ofValue, Json.Tree.ofValue, Json.Decoder.variant]
    simp only [c.type.lookup_name]
    rfl
  refine ⟨Instant.ofColumn? createdAt, Instant.ofColumn? updatedAt, ?_⟩
  rw [credential, htype]
  rfl

namespace Store

def saveCredentials (s : Store) (saved : List (Stamp × Credential)) : Store :=
  saved.foldl (fun s x => (saveCredential x.1 x.2 s).2) s

theorem saveCredentials_concat (s : Store) (saved : List (Stamp × Credential))
    (x : Stamp × Credential) :
    s.saveCredentials (saved ++ [x]) = (saveCredential x.1 x.2 (s.saveCredentials saved)).2 :=
  List.foldl_append

theorem find?_saveCredential (s : Store) (stamp : Stamp) {c : Credential} (hid : c.id ≠ "")
    (id : String) :
    (((saveCredential stamp c s).2.credentials.find? fun r => r.id = id).map CredentialRow.timeless) =
      if c.id = id then some c.row
      else (s.credentials.find? fun r => r.id = id).map CredentialRow.timeless := by
  let new : CredentialRow := .ofCredential (stampCredential stamp c) (c.createdAt.getD stamp.now)
    stamp.now
  have hnew : new.id = c.id := by
    show (if c.id.isEmpty then stamp.fresh else c.id) = c.id
    rw [if_neg (by simpa using hid)]
  have htimeless : new.timeless = c.row := by
    rw [CredentialRow.timeless, hnew]
    rfl
  show ((putCredential new s.credentials).find? fun r => r.id = id).map _ = _
  rw [putCredential_eq, find?_putRow CredentialRow.id_since, hnew]
  by_cases h : c.id = id
  · rw [if_pos h, if_pos h, Option.map_some, ← htimeless]
    cases s.credentials.find? fun r => r.id = id with
    | none => rfl
    | some old => exact congrArg some (CredentialRow.timeless_since old new)
  · rw [if_neg h, if_neg h]

theorem find?_saveCredentials {saved : List (Stamp × Credential)} (hid : ∀ x ∈ saved, x.2.id ≠ "")
    (id : String) :
    ((empty.saveCredentials saved).credentials.find? fun r => r.id = id).map CredentialRow.timeless =
      (lastOf (saved.map Prod.snd) id).map Credential.row := by
  induction saved using List.reverseRecOn with
  | nil => rfl
  | append_singleton saved x ih =>
    obtain ⟨hold, hnew⟩ := List.forall_mem_append.1 hid
    rw [saveCredentials_concat, find?_saveCredential _ _ (hnew x (List.mem_singleton.2 rfl)), ih hold,
      List.map_append, List.map_cons, List.map_nil, lastOf_concat]
    by_cases h : x.2.id = id
    · rw [if_pos h, if_pos h, Option.map_some]
    · rw [if_neg h, if_neg h]

end Store

/-! ## Resolving -/

variable {α : Type}

/-- What an id is resolved to if the credential of it is the last of some that were put under it. -/
def resolveLast (p : Payload α) (cs : List Credential) (id : String) : Except Failure α :=
  match lastOf cs id with
  | some c => c.payload p
  | none => .error (.credentialNotFound id)

theorem resolve_shelf (config : AppConfig) (cs : List Credential) (p : Payload α) (id : String) :
    (Services.mk config (CredentialShelf.ofList cs).fetch).resolve p id = resolveLast p cs id := by
  show ((CredentialShelf.ofList cs).fetch id).bind _ = _
  rw [CredentialShelf.fetch, CredentialShelf.get?_ofList, resolveLast]
  cases lastOf cs id <;> rfl

theorem resolve_saved (config : AppConfig) {saved : List (Stamp × Credential)}
    (hid : ∀ x ∈ saved, x.2.id ≠ "") (p : Payload α) (id : String) :
    (Services.mk config fun id => (Store.empty.saveCredentials saved).credential id).resolve p id =
      resolveLast p (saved.map Prod.snd) id := by
  have hfind := Store.find?_saveCredentials hid id
  show ((Store.empty.saveCredentials saved).credential id).bind _ = _
  rw [Store.credential, resolveLast]
  cases hlast : lastOf (saved.map Prod.snd) id with
  | none =>
    rw [hlast, Option.map_none, Option.map_eq_none_iff] at hfind
    rw [hfind]
    rfl
  | some c =>
    rw [hlast, Option.map_some, Option.map_eq_some_iff] at hfind
    obtain ⟨r, hr, htimeless⟩ := hfind
    -- The moments of the row are those of its own saves; the payload does not depend on them.
    obtain ⟨created, updated, hcredential⟩ := CredentialRow.exists_credential htimeless
    simp only [hr, hcredential]
    rfl

theorem Credential.payload_eq_ok_iff {c : Credential} {p : Payload α} {a : α} :
    c.payload p = .ok a ↔ c.type = p.type ∧ p.decoder.ofText c.config.toList = .ok a := by
  rw [payload]
  by_cases h : c.type = p.type
  · rw [if_neg (not_not_intro h), Checks.mapError_eq_ok_iff, and_iff_right h]
  · rw [if_pos h]
    simp [h]

theorem Credential.exists_of_payload_error {c : Credential} {p : Payload α}
    (h : ∀ a, c.payload p ≠ .ok a) : ∃ m, c.payload p = .error (.configuration m) := by
  rw [payload] at h ⊢
  split
  · exact ⟨_, rfl⟩
  · rename_i htype
    rw [if_neg htype] at h
    cases hdecode : p.decoder.ofText c.config.toList with
    | error e => exact ⟨_, rfl⟩
    | ok a =>
      rw [hdecode] at h
      exact absurd rfl (h a)

theorem Credential.payload_new {id agentId : String} {p : Payload α} {a written : α}
    (h : p.WrittenAs a written) : (new id agentId p written).payload p = .ok a :=
  payload_eq_ok_iff.2 ⟨rfl, (congrArg _ (String.toList_ofList ..)).trans h.ofText_print⟩

/-- After the same credentials have been put in memory and saved in a store, an id is resolved alike
from both.  If nothing was put under the id it is not found.  Otherwise the credential put last under
it counts: its payload is given if the type is the one asked for and the payload decodes, which it does
if the credential was made with it, and else the failure is one of configuration. -/
theorem resolve_stores (config : AppConfig) (saved : List (Stamp × Credential))
    (hid : ∀ x ∈ saved, x.2.id ≠ "") (p : Payload α) (id : String) :
    let kept := saved.map Prod.snd
    let own := kept.filter fun c => c.id = id
    let found := (Services.mk config (CredentialShelf.ofList kept).fetch).resolve p id
    (Services.mk config fun id => (Store.empty.saveCredentials saved).credential id).resolve p id =
        found ∧
      (own = [] → found = .error (.credentialNotFound id)) ∧
      ∀ c, own.getLast? = some c →
        (∀ a, found = .ok a ↔ c.type = p.type ∧ p.decoder.ofText c.config.toList = .ok a) ∧
        ((c.type ≠ p.type ∨ ∃ e, p.decoder.ofText c.config.toList = .error e) →
          ∃ m, found = .error (.configuration m)) ∧
        ∀ agentId a written, p.WrittenAs a written → c = .new id agentId p written →
          found = .ok a := by
  intro kept own found
  have hfound : found = resolveLast p kept id := resolve_shelf config kept p id
  refine ⟨(resolve_saved config hid p id).trans hfound.symm, fun hnone => ?_, fun c hc => ?_⟩
  · have hlast : lastOf kept id = none := congrArg List.getLast? hnone
    rw [hfound, resolveLast, hlast]
  · have hlast : lastOf kept id = some c := hc
    rw [hfound, resolveLast, hlast]
    refine ⟨fun a => Credential.payload_eq_ok_iff, fun hbad => ?_, fun agentId a written hp hnew => ?_⟩
    · refine Credential.exists_of_payload_error fun a ha => ?_
      obtain ⟨htype, hdecode⟩ := Credential.payload_eq_ok_iff.1 ha
      rcases hbad with hbad | ⟨e, he⟩
      · exact hbad htype
      · rw [hdecode] at he
        cases he
    · rw [hnew]
      exact Credential.payload_new hp

def appAccess : DatabaseAccess := ⟨"", 0, "app.db", "", "", ""⟩

def replaced : List (Stamp × Credential) :=
  [(⟨⟨0, 0⟩, "fresh"⟩, .new "main" "agent" .mail ⟨"mail.test", 587, "", "", "", "", false⟩),
    (⟨⟨1, 0⟩, "fresh"⟩, .new "main" "agent" .database appAccess)]

theorem resolve_stores_replaced :
    let stored : Services :=
      ⟨.default, fun id => (Store.empty.saveCredentials replaced).credential id⟩
    (∀ x ∈ replaced, x.2.id ≠ "") ∧ stored.resolve .database "main" = .ok appAccess ∧
      (∃ m, stored.resolve .mail "main" = .error (.configuration m)) ∧
      stored.resolve .database "other" = .error (.credentialNotFound "other") := by
  intro stored
  have hid : ∀ x ∈ replaced, x.2.id ≠ "" := by decide
  have hport : appAccess.port < UInt16.size := by decide
  obtain ⟨hsame, -, hlast⟩ := resolve_stores .default replaced hid .database "main"
  obtain ⟨hsameMail, -, hlastMail⟩ := resolve_stores .default replaced hid .mail "main"
  obtain ⟨hsameOther, hnone, -⟩ := resolve_stores .default replaced hid .database "other"
  refine ⟨hid, hsame.trans ?_, ?_, hsameOther.trans (hnone (by decide))⟩
  · exact (hlast _ rfl).2.2 "agent" appAccess appAccess (.database hport) rfl
  · obtain ⟨m, hm⟩ := (hlastMail _ rfl).2.1 (.inl (by decide))
    exact ⟨m, hsameMail.trans hm⟩

end Automation
