import Automation.Credential
import Automation.Proofs.Flow.Wire

/-!
# Payloads read back

The payload of a credential is text.  `Payload.WrittenAs.ofText_print` says that the text of each kind
of payload is decoded as the payload: members that were left out come back as absent, and headers are
put in order again in whatever order they were written.
-/

namespace Automation

open Json (Decoder Layout Reading)
open Json.Layout (reads_nil Reads)

theorem AuthType.lookup_name (a : AuthType) : names.lookup a.name = some a := by
  cases a <;> rfl

/-- What a payload may be written as.  A port has 16 bits; headers are kept by key, and written in any
order. -/
inductive Payload.WrittenAs : {α : Type} → Payload α → α → α → Prop
  | database {a : DatabaseAccess} (hport : a.port < UInt16.size) : WrittenAs database a a
  | model (a : ModelAccess) : WrittenAs model a a
  | mail {a : MailAccess} (hport : a.port < UInt16.size) : WrittenAs mail a a
  | api {a : ApiAccess} {headers : Keyed String} (hkeys : Keyed.SortedKeys a.headers)
      (horder : headers.Perm a.headers) : WrittenAs api a { a with headers := headers }

section Decoders

variable {r : Reading}

theorem takes_port {n : Nat} (hn : n < UInt16.size) : Decoder.u16.Takes r (.ofNat n) n :=
  Decoder.takes_natBelow hn (by decide)

theorem takes_texts {texts members : Keyed String} (hkeys : Keyed.SortedKeys texts)
    (horder : members.Perm texts) (hdepth : r.Allows (encodeTexts members).nesting) :
    textsDecoder.Takes r (encodeTexts members) texts := by
  have hmembers : (Decoder.members Decoder.text).Takes r
      (.object (members.map fun x => (x.1, .string x.2))) members :=
    Decoder.takes_members hdepth fun x _ => Decoder.takes_text x.2
  intro t ht
  rw [textsDecoder, hmembers t ht]
  exact congrArg Except.ok (Keyed.ofList_of_perm hkeys horder)

theorem DatabaseAccess.takes (a : DatabaseAccess) (hport : a.port < UInt16.size)
    (hdepth : r.Allows a.encode.nesting) : decoder.Takes r a.encode a := by
  have hreads : layout.Reads r.inner [("host", .string a.host), ("port", .ofNat a.port),
      ("database", .string a.database), ("user", .string a.user), ("password", .string a.password),
      ("ssl_mode", .string a.sslMode)] layout.start
      (some a.host, some a.port, some a.database, some a.user, some a.password, some a.sslMode,
        ()) :=
    .written (Decoder.takes_text a.host) (by simp) <|
    .written (takes_port hport) (by simp) <|
    .written (Decoder.takes_text a.database) (by simp) <|
    .written (Decoder.takes_text a.user) (by simp) <|
    .written (Decoder.takes_text a.password) (by simp) <|
    .written (Decoder.takes_text a.sslMode) (by simp) reads_nil
  exact Layout.takes_object hdepth hreads rfl

theorem ModelAccess.takes (a : ModelAccess) (hdepth : r.Allows a.encode.nesting) :
    decoder.Takes r a.encode a := by
  have hreads : layout.Reads r.inner (("api_key", .string a.apiKey) ::
      (Record.optional "organization" .string a.organization ++
        (Record.optional "base_url" .string a.baseUrl ++ []))) layout.start
      (some a.apiKey, a.organization.map some, a.baseUrl.map some, ()) :=
    .written (Decoder.takes_text a.apiKey) (Record.ne_of_mem_optional (by decide)
      (Record.ne_of_mem_optional (by decide) (by simp))) <|
    .writtenOptional takes_optionalText (Record.ne_of_mem_optional (by decide) (by simp)) <|
    .writtenOptional takes_optionalText (by simp) reads_nil
  have hencode : a.encode = .object (("api_key", .string a.apiKey) ::
      (Record.optional "organization" .string a.organization ++
        (Record.optional "base_url" .string a.baseUrl ++ []))) := by
    simp [encode]
  have hfinish : layout.finish (fun _ key => .missingField key)
      (some a.apiKey, a.organization.map some, a.baseUrl.map some, ()) =
        .ok (a.apiKey, a.organization, a.baseUrl, ()) := by
    cases a.organization <;> cases a.baseUrl <;> rfl
  rw [hencode] at hdepth ⊢
  exact Layout.takes_object hdepth hreads hfinish

theorem MailAccess.takes (a : MailAccess) (hport : a.port < UInt16.size)
    (hdepth : r.Allows a.encode.nesting) : decoder.Takes r a.encode a := by
  have hreads : layout.Reads r.inner [("host", .string a.host), ("port", .ofNat a.port),
      ("user", .string a.user), ("password", .string a.password), ("from_name", .string a.fromName),
      ("from_email", .string a.fromEmail), ("use_tls", .bool a.useTls)] layout.start
      (some a.host, some a.port, some a.user, some a.password, some a.fromName, some a.fromEmail,
        some a.useTls, ()) :=
    .written (Decoder.takes_text a.host) (by simp) <|
    .written (takes_port hport) (by simp) <|
    .written (Decoder.takes_text a.user) (by simp) <|
    .written (Decoder.takes_text a.password) (by simp) <|
    .written (Decoder.takes_text a.fromName) (by simp) <|
    .written (Decoder.takes_text a.fromEmail) (by simp) <|
    .written (Decoder.takes_bool a.useTls) (by simp) reads_nil
  exact Layout.takes_object hdepth hreads rfl

theorem ApiAccess.takes (a : ApiAccess) {headers : Keyed String}
    (hkeys : Keyed.SortedKeys a.headers) (horder : headers.Perm a.headers)
    (hdepth : r.Allows (encode { a with headers := headers }).nesting) :
    decoder.Takes r (encode { a with headers := headers }) a := by
  have hheaders : r.inner.Allows (encodeTexts headers).nesting :=
    hdepth.inner (Value.nesting_lt_object (m := ("headers", encodeTexts headers)) (by simp))
  have hreads : layout.Reads r.inner [("base_url", .string a.baseUrl),
      ("headers", encodeTexts headers), ("auth_type", .string a.authType.name),
      ("auth_value", .string a.authValue)] layout.start
      (some a.baseUrl, some a.headers, some a.authType, some a.authValue, ()) :=
    .written (Decoder.takes_text a.baseUrl) (by simp) <|
    .written (takes_texts hkeys horder hheaders) (by simp) <|
    .written (Decoder.takes_variant a.authType.lookup_name) (by simp) <|
    .written (Decoder.takes_text a.authValue) (by simp) reads_nil
  exact Layout.takes_object hdepth hreads rfl

end Decoders

/-! ## Texts -/

theorem nesting_ofNat (n : Nat) : (Value.ofNat n).nesting = 0 := by
  rw [Value.ofNat]
  cases Number.ofInt? n <;> rfl

theorem nesting_encodeTexts (texts : Keyed String) : (encodeTexts texts).nesting = 1 := by
  refine Value.nesting_object_of_flat fun m hm => ?_
  obtain ⟨x, -, rfl⟩ := List.mem_map.1 hm
  rfl

theorem DatabaseAccess.nesting_encode (a : DatabaseAccess) : a.encode.nesting = 1 :=
  Value.nesting_object_of_flat (by simp [nesting_ofNat, Value.nesting])

theorem ModelAccess.nesting_encode (a : ModelAccess) : a.encode.nesting = 1 := by
  rw [encode]
  cases a.baseUrl <;> cases a.organization <;> rfl

theorem MailAccess.nesting_encode (a : MailAccess) : a.encode.nesting = 1 :=
  Value.nesting_object_of_flat (by simp [nesting_ofNat, Value.nesting])

theorem ApiAccess.nesting_encode (a : ApiAccess) : a.encode.nesting = 2 := by
  simp [encode, Value.nesting, Value.nestingOfMembers, nesting_encodeTexts]

variable {α : Type} {p : Payload α} {a written : α}

theorem allows_payload {v : Value} (h : v.nesting ≤ 2) : (⟨true, 0⟩ : Reading).Allows v.nesting := by
  intro _
  show 0 + v.nesting < 128
  omega

/-- The text of a payload is decoded as the payload. -/
theorem Payload.WrittenAs.ofText_print (h : p.WrittenAs a written) :
    p.decoder.ofText (Json.print (p.encode written)) = .ok a := by
  refine Decoder.ofText_print ?_
  cases h with
  | @database a hport =>
    exact a.takes hport (allows_payload (by rw [a.nesting_encode]; decide))
  | model a =>
    exact a.takes (allows_payload (by rw [a.nesting_encode]; decide))
  | @mail a hport =>
    exact a.takes hport (allows_payload (by rw [a.nesting_encode]; decide))
  | @api a headers hkeys horder =>
    exact a.takes hkeys horder (allows_payload (Nat.le_of_eq (ApiAccess.nesting_encode _)))

end Automation
