/-
Who is let in: the presenters of live keys.

`Presents` is the grammar of the header, and `parseBearerCredential_eq_ok`
says the parser accepts nothing else. A credential that is accepted is
looked up by its prefix, which is one row's, and the row is that of a key
that was issued and not revoked since (`active_iff_live`). So a request
is authenticated exactly when it presents a credential with the prefix
and the digest of a live key that has not expired, and it is then the
principal of that key.

A request that is not authenticated fails with one of two codes, and
which of them depends on whether it sent a credential at all.
-/
import PrivacyGateway.Api.Errors
import PrivacyGateway.Auth.Proofs.Keys
import PrivacyGateway.Lib.Trim

namespace PrivacyGateway.Auth

open Trim

-- ==================================================== the header

section Header

variable {unicode : Unicode}

def Blank (unicode : Unicode) (text : Text) : Prop :=
  ∀ c ∈ text, unicode.isSpace c = true

/-- A credential of the form that keys have. -/
structure WellFormed (credential : Text) : Prop where
  nonempty : credential ≠ []
  short : credential.length ≤ maxCredentialChars
  token : isToken credential = true

/-- The header carries this credential. -/
def Presents (unicode : Unicode) (header credential : Text) : Prop :=
  ∃ before scheme gap after,
    header = before ++ (scheme ++ ' ' :: (gap ++ (credential ++ after))) ∧
      Blank unicode before ∧ Blank unicode gap ∧ Blank unicode after ∧
      ' ' ∉ scheme ∧ (∀ c ∈ scheme.head?, unicode.isSpace c = false) ∧
      unicode.lower scheme = bearerScheme ∧ WellFormed credential

theorem strip_eq_trim (text : Text) :
    unicode.strip text = trim unicode.isSpace text := rfl

/-- A token has no space in it. -/
theorem not_isSpace_of_isToken {value : Text} (h : isToken value = true) :
    ∀ c ∈ value, unicode.isSpace c = false := by
  intro c hc
  have hprintable := List.all_eq_true.mp h c hc
  simp only [Bool.and_eq_true, decide_eq_true_eq] at hprintable
  have hascii : isAscii c = true := decide_eq_true (by omega)
  rw [unicode.isSpace_ascii c hascii]
  unfold asciiSpace
  simp only [Bool.or_eq_false_iff, Bool.and_eq_false_iff,
    decide_eq_false_iff_not]
  omega

theorem scheme_ne_nil {scheme : Text}
    (h : unicode.lower scheme = bearerScheme) : scheme ≠ [] := by
  rintro rfl
  rw [unicode.lower_ascii [] (fun c hc => absurd hc List.not_mem_nil)] at h
  cases h

/-- What stands before the first space, and what stands after it. -/
theorem partitionSpace_eq_some_iff {value scheme remainder : Text} :
    partitionSpace value = some (scheme, remainder) ↔
      value = scheme ++ ' ' :: remainder ∧ ' ' ∉ scheme := by
  have hsplit := List.takeWhile_append_dropWhile
    (p := fun c => decide (c ≠ ' ')) (l := value)
  have hfree : ' ' ∉ value.takeWhile (fun c => decide (c ≠ ' ')) := by
    intro hmem
    have := List.all_eq_true.mp List.all_takeWhile _ hmem
    exact absurd rfl (of_decide_eq_true this)
  constructor
  · intro h
    unfold partitionSpace at h
    cases hdrop : value.dropWhile (fun c => decide (c ≠ ' ')) with
    | nil =>
        rw [hdrop] at h
        cases h
    | cons c rest =>
        have hc := dropWhile_head (p := fun c => decide (c ≠ ' ')) value c
          (by rw [hdrop]; rfl)
        have hc : c = ' ' := by simpa using hc
        rw [hdrop] at h hsplit
        cases h
        rw [hc] at hsplit
        exact ⟨hsplit.symm, hfree⟩
  · intro h
    obtain ⟨rfl, hscheme⟩ := h
    have hpos : ∀ c ∈ scheme, decide (c ≠ ' ') = true := by
      intro c hc
      apply decide_eq_true
      rintro rfl
      exact hscheme hc
    unfold partitionSpace
    rw [List.dropWhile_append_of_pos hpos,
      List.takeWhile_append_of_pos hpos]
    simp

theorem credentialOf_eq_ok {candidate credential : Text} :
    credentialOf candidate = .ok credential ↔
      candidate = credential ∧ WellFormed credential := by
  unfold credentialOf
  constructor
  · intro h
    split at h
    · cases h
    · rename_i hform
      cases h
      simp only [not_or, Nat.not_lt] at hform
      exact ⟨rfl, hform.1, hform.2.1, by simpa using hform.2.2⟩
  · intro h
    obtain ⟨rfl, hne, hlen, htoken⟩ := h
    rw [if_neg]
    simp only [not_or, Nat.not_lt]
    exact ⟨hne, hlen, by rw [htoken]; decide⟩

/-- A header without space around it, split at its first space. -/
theorem parseBearerCredential_of_split {header scheme remainder : Text}
    (h : unicode.strip header = scheme ++ ' ' :: remainder)
    (hscheme : ' ' ∉ scheme) (hlower : unicode.lower scheme = bearerScheme) :
    parseBearerCredential unicode (some header) =
      credentialOf (unicode.strip remainder) := by
  unfold parseBearerCredential
  rw [Option.getD_some, h]
  simp only
  rw [if_neg (by simp), partitionSpace_eq_some_iff.mpr ⟨rfl, hscheme⟩]
  simp only
  rw [if_neg (by rw [not_not]; exact hlower)]

/-- And no other header has a credential. -/
theorem exists_split_of_parse {header : Option Text} {credential : Text}
    (h : parseBearerCredential unicode header = .ok credential) :
    ∃ value scheme remainder, header = some value ∧
      unicode.strip value = scheme ++ ' ' :: remainder ∧
      ' ' ∉ scheme ∧ unicode.lower scheme = bearerScheme := by
  unfold parseBearerCredential at h
  simp only at h
  by_cases hblank : unicode.strip (header.getD []) = []
  · rw [if_pos hblank] at h
    cases h
  rw [if_neg hblank] at h
  cases hpart : partitionSpace (unicode.strip (header.getD [])) with
  | none =>
      rw [hpart] at h
      cases h
  | some parts =>
      obtain ⟨scheme, remainder⟩ := parts
      rw [hpart] at h
      simp only at h
      by_cases hscheme : unicode.lower scheme ≠ bearerScheme
      · rw [if_pos hscheme] at h
        cases h
      · obtain ⟨htrim, hfree⟩ := partitionSpace_eq_some_iff.mp hpart
        cases header with
        | none => exact absurd rfl hblank
        | some value =>
            exact ⟨value, scheme, remainder, rfl, htrim, hfree,
              not_not.mp hscheme⟩

/-- The parser accepts a header exactly when it carries a credential, and
returns that. -/
theorem parseBearerCredential_eq_ok {header : Option Text}
    {credential : Text} :
    parseBearerCredential unicode header = .ok credential ↔
      ∃ value ∈ header, Presents unicode value credential := by
  constructor
  · intro h
    obtain ⟨value, scheme, remainder, rfl, htrim, hfree, hlower⟩ :=
      exists_split_of_parse h
    rw [parseBearerCredential_of_split htrim hfree hlower] at h
    obtain ⟨hcredential, hform⟩ := credentialOf_eq_ok.mp h
    obtain ⟨before, after, hvalue, hbefore, hafter, htight⟩ :=
      trim_spec (p := unicode.isSpace) value
    obtain ⟨gap, tail, hrem, hgap, htail, -⟩ :=
      trim_spec (p := unicode.isSpace) remainder
    refine ⟨value, rfl, before, scheme, gap, tail ++ after, ?_, hbefore,
      hgap, List.forall_mem_append.mpr ⟨htail, hafter⟩, hfree, ?_, hlower,
      hform⟩
    · rw [← strip_eq_trim] at hvalue hrem
      rw [hvalue, htrim, hrem, hcredential]
      simp
    · intro c hc
      apply htight.1 c
      rw [← strip_eq_trim, htrim, List.head?_append, Option.mem_def.mp hc]
      rfl
  · intro h
    obtain ⟨value, hvalue, before, scheme, gap, after, rfl, hbefore, hgap,
      hafter, hfree, hhead, hlower, hform⟩ := h
    cases Option.mem_def.mp hvalue
    have hsolid : ∀ c ∈ credential, unicode.isSpace c = false :=
      not_isSpace_of_isToken hform.token
    have hremainder : unicode.strip (gap ++ (credential ++ [])) =
        credential :=
      trim_append hgap (fun c hc => absurd hc List.not_mem_nil)
        (tight_of_forall hsolid)
    have htight : Tight unicode.isSpace
        (scheme ++ ' ' :: (gap ++ credential)) := by
      constructor
      · obtain ⟨c, rest, rfl⟩ :=
          List.exists_cons_of_ne_nil (scheme_ne_nil hlower)
        exact hhead
      · intro c hc
        apply hsolid c
        rw [show scheme ++ ' ' :: (gap ++ credential) =
            (scheme ++ ' ' :: gap) ++ credential by simp,
          List.getLast?_append_of_ne_nil _ hform.nonempty] at hc
        exact List.mem_of_getLast? hc
    have hstrip : trim unicode.isSpace (before ++ (scheme ++
        ' ' :: (gap ++ (credential ++ after)))) =
        scheme ++ ' ' :: (gap ++ credential) := by
      rw [← trim_append hbefore hafter htight]
      simp
    rw [parseBearerCredential_of_split hstrip hfree hlower]
    rw [List.append_nil] at hremainder
    rw [hremainder]
    exact credentialOf_eq_ok.mpr ⟨rfl, hform⟩

/-- A raw key is sent as it was handed out. -/
theorem presents_rawKey (unicode : Unicode) (random : KeyBytes) :
    Presents unicode ("Bearer ".toList ++ rawKeyOf random)
      (rawKeyOf random) := by
  obtain ⟨hchars, hlen⟩ := rawKeyOf_spec random
  have hnone : Blank unicode [] := fun c hc => absurd hc List.not_mem_nil
  refine ⟨[], "Bearer".toList, [], [], by simp, hnone, hnone, hnone,
    by decide, ?_, ?_, ?_, ?_, ?_⟩
  · intro c hc
    rw [show "Bearer".toList.head? = some 'B' by decide] at hc
    cases Option.mem_def.mp hc
    rw [unicode.isSpace_ascii 'B' (by decide)]
    rfl
  · rw [unicode.lower_ascii _ (fun c hc =>
      List.all_eq_true.mp (show "Bearer".toList.all isAscii = true by decide)
        c hc)]
    decide
  · intro hnil
    rw [hnil] at hlen
    cases hlen
  · rw [hlen]
    decide
  · refine List.all_eq_true.mpr (fun c hc => ?_)
    exact List.all_eq_true.mp (show isToken urlsafeAlphabet = true by decide)
      c (hchars c hc)

end Header

-- ==================================================== the lookup

section Lookup

variable {hashes : Hashes} {pepper : Text} {tenants : List UUID}
  {table : KeyTable} {rawKey : Text} {now : Rat}

/-- One row at most has a prefix. -/
theorem filter_prefix_cases (table : KeyTable) (text : Text) :
    (table.rows.filter fun row => decide (row.keyPrefix = text)) = [] ∨
      ∃ record, (table.rows.filter fun row =>
        decide (row.keyPrefix = text)) = [record] := by
  cases hfound : table.rows.filter
      fun row => decide (row.keyPrefix = text) with
  | nil => exact Or.inl rfl
  | cons record rest =>
      cases rest with
      | nil => exact Or.inr ⟨record, rfl⟩
      | cons other rest =>
          have hmem : ∀ row ∈ record :: other :: rest,
              row.keyPrefix = text := by
            intro row hrow
            rw [← hfound] at hrow
            exact of_decide_eq_true (List.mem_filter.mp hrow).2
          have hapart := table.apart.filter
            (fun row => decide (row.keyPrefix = text))
          rw [hfound] at hapart
          refine absurd (Or.inr (Or.inl ?_))
            ((List.pairwise_cons.mp hapart).1 other List.mem_cons_self)
          rw [hmem record List.mem_cons_self,
            hmem other (List.mem_cons_of_mem _ List.mem_cons_self)]

/-- The lookup never finds two, and finds the row that verifies. -/
theorem authenticate_spec :
    ∃ found, authenticate hashes pepper table rawKey now = .ok found ∧
      ∀ record, found = some record ↔
        record ∈ table.rows ∧ record.keyPrefix = prefixOf rawKey ∧
          hashApiKey hashes pepper rawKey = record.keyHash ∧
          record.isUsable now = true := by
  have hmem : ∀ {row}, row ∈ table.rows.filter
      (fun row => decide (row.keyPrefix = prefixOf rawKey)) ↔
      row ∈ table.rows ∧ row.keyPrefix = prefixOf rawKey := by
    intro row
    rw [List.mem_filter, decide_eq_true_eq]
  unfold authenticate
  rcases filter_prefix_cases table (prefixOf rawKey) with hnone | ⟨row, hone⟩
  · rw [hnone] at hmem ⊢
    refine ⟨none, rfl, fun record => ⟨nofun, fun h => ?_⟩⟩
    exact absurd (hmem.mpr ⟨h.1, h.2.1⟩) List.not_mem_nil
  · rw [hone] at hmem ⊢
    have hrow := hmem.mp (List.mem_singleton_self row)
    simp only [scalarOneOrNone, bind, Except.bind, pure, Except.pure]
    by_cases hverify : hashApiKey hashes pepper rawKey = row.keyHash
    · have hv : verifyApiKey hashes pepper rawKey row.keyHash = true :=
        beq_iff_eq.mpr hverify
      rw [hv]
      by_cases husable : row.isUsable now = true
      · rw [husable]
        refine ⟨some row, rfl, fun record => ⟨fun h => ?_, fun h => ?_⟩⟩
        · cases h
          exact ⟨hrow.1, hrow.2, hverify, husable⟩
        · rw [List.mem_singleton.mp (hmem.mpr ⟨h.1, h.2.1⟩)]
      · rw [Bool.not_eq_true] at husable
        rw [husable]
        refine ⟨none, rfl, fun record => ⟨nofun, fun h => ?_⟩⟩
        rw [List.mem_singleton.mp (hmem.mpr ⟨h.1, h.2.1⟩), husable] at h
        exact absurd h.2.2.2 (by decide)
    · have hv : verifyApiKey hashes pepper rawKey row.keyHash = false :=
        beq_eq_false_iff_ne.mpr hverify
      rw [hv]
      refine ⟨none, rfl, fun record => ⟨nofun, fun h => ?_⟩⟩
      rw [List.mem_singleton.mp (hmem.mpr ⟨h.1, h.2.1⟩)] at h
      exact absurd h.2.2.1 hverify

/-- The record has not expired at this moment. -/
def Unexpired (record : ApiKey) (moment : Rat) : Prop :=
  ∀ expiry ∈ record.expiresAt, moment < expiry

theorem isUsable_iff {record : ApiKey} {moment : Rat} :
    record.isUsable moment = true ↔
      record.status = .active ∧ Unexpired record moment := by
  unfold ApiKey.isUsable Unexpired
  cases record.expiresAt with
  | none => simp
  | some expiry => simp

/-- A principal is the one of an active row that verifies and has expired
at neither reading of the clock. -/
theorem resolvePrincipal_eq_ok {moment : Rat} {principal : KeyPrincipal} :
    resolvePrincipal hashes pepper (.reachable table) rawKey moment now =
        .ok principal ↔
      ∃ record ∈ table.rows, record.keyPrefix = prefixOf rawKey ∧
        hashApiKey hashes pepper rawKey = record.keyHash ∧
        record.status = .active ∧ Unexpired record moment ∧
        Unexpired record now ∧ principal = buildPrincipal record := by
  obtain ⟨found, hfound, hspec⟩ :=
    @authenticate_spec hashes pepper table rawKey now
  unfold resolvePrincipal
  simp only [hfound]
  cases found with
  | none =>
      constructor
      · intro h
        cases h
      · intro h
        obtain ⟨record, hmem, hhead, hhash, hactive, -, hnow, -⟩ := h
        cases (hspec record).mpr
          ⟨hmem, hhead, hhash, isUsable_iff.mpr ⟨hactive, hnow⟩⟩
  | some record =>
      obtain ⟨hmem, hhead, hhash, husable⟩ := (hspec record).mp rfl
      obtain ⟨hactive, hnow⟩ := isUsable_iff.mp husable
      simp only [ne_eq, hactive, not_true_eq_false, if_false]
      by_cases hexpired : ∃ expiry ∈ record.expiresAt, expiry ≤ moment
      · rw [if_pos hexpired]
        constructor
        · intro h
          cases h
        · intro h
          obtain ⟨other, hother, hhead', hhash', hactive', hmoment, hnow',
            -⟩ := h
          cases (hspec other).mpr ⟨hother, hhead', hhash',
            isUsable_iff.mpr ⟨hactive', hnow'⟩⟩
          obtain ⟨expiry, hexpiry, hle⟩ := hexpired
          exact absurd (hmoment expiry hexpiry) (not_lt.mpr hle)
      · rw [if_neg hexpired]
        constructor
        · intro h
          cases h
          refine ⟨record, hmem, hhead, hhash, hactive, ?_, hnow, rfl⟩
          intro expiry hexpiry
          exact not_le.mp (fun hle => hexpired ⟨expiry, hexpiry, hle⟩)
        · intro h
          obtain ⟨other, hother, hhead', hhash', hactive', -, hnow',
            rfl⟩ := h
          cases (hspec other).mpr ⟨hother, hhead', hhash',
            isUsable_iff.mpr ⟨hactive', hnow'⟩⟩
          rfl

end Lookup

-- ==================================================== runs

section Runs

variable {hashes : Hashes} {pepper : Text} {tenants : List UUID}
  {unicode : Unicode} {ops : List KeyOp}

/-- The record of a key that was issued. -/
theorem record_of_live {key : IssuedApiKey}
    (h : Live hashes pepper tenants ops key) :
    ∃ random, key.rawKey = rawKeyOf random ∧
      key.record.keyPrefix = prefixOf key.rawKey ∧
      key.record.keyHash = hashApiKey hashes pepper key.rawKey ∧
      key.record.status = .active := by
  obtain ⟨before, op, after, -, hissued, -⟩ := h
  cases op with
  | create request =>
      unfold issuedBy at hissued
      cases hcreate : create hashes pepper tenants
          (keyTable hashes pepper tenants before) request with
      | error e =>
          simp only [hcreate] at hissued
          cases hissued
      | ok result =>
          simp only [hcreate] at hissued
          cases hissued
          obtain ⟨expiresAt, hrecord, hraw, -, -⟩ := create_eq_ok hcreate
          refine ⟨request.random, hraw, ?_, ?_, by rw [hrecord]; rfl⟩
          · rw [hraw, prefixOf_rawKeyOf, hrecord]
            rfl
          · rw [hraw, hrecord]
            rfl
  | revoke tenantId apiKeyId => cases hissued
  | touchLastUsed tenantId apiKeyId moment => cases hissued

theorem Agrees.fields {row record : ApiKey} (h : Agrees row record) :
    row.keyPrefix = record.keyPrefix ∧ row.keyHash = record.keyHash ∧
      row.status = record.status ∧ row.expiresAt = record.expiresAt ∧
      buildPrincipal row = buildPrincipal record := by
  rw [h]
  exact ⟨rfl, rfl, rfl, rfl, rfl⟩

/-- After any run a request is authenticated exactly when its header
carries a credential with the prefix and the digest of a live key that has
not expired, and then as the principal of that key. -/
theorem authenticateBearer_iff_live (ops : List KeyOp)
    (header : Option Text) (moment now : Rat) (principal : KeyPrincipal) :
    authenticateBearer hashes pepper unicode
        (.reachable (keyTable hashes pepper tenants ops)) header moment now =
          .ok principal ↔
      ∃ value ∈ header, ∃ credential key,
        Presents unicode value credential ∧
          Live hashes pepper tenants ops key ∧
          prefixOf credential = prefixOf key.rawKey ∧
          hashApiKey hashes pepper credential =
            hashApiKey hashes pepper key.rawKey ∧
          Unexpired key.record moment ∧ Unexpired key.record now ∧
          principal = buildPrincipal key.record := by
  have hmirrors : Mirrors (keyTable hashes pepper tenants ops)
      (Live hashes pepper tenants ops) := active_iff_live ops
  constructor
  · intro h
    unfold authenticateBearer at h
    cases hparse : parseBearerCredential unicode header with
    | error e =>
        rw [hparse] at h
        cases h
    | ok credential =>
        rw [hparse] at h
        obtain ⟨value, hvalue, hpresents⟩ :=
          parseBearerCredential_eq_ok.mp hparse
        obtain ⟨row, hrow, hhead, hhash, hactive, hmoment, hnow, rfl⟩ :=
          resolvePrincipal_eq_ok.mp h
        obtain ⟨key, hlive, hagrees⟩ := hmirrors.issued row hrow hactive
        obtain ⟨hrowhead, hrowhash, -, hexpiry, hbuild⟩ := hagrees.fields
        obtain ⟨-, -, hkeyhead, hkeyhash, -⟩ := record_of_live hlive
        refine ⟨value, hvalue, credential, key, hpresents, hlive, ?_, ?_, ?_,
          ?_, hbuild⟩
        · rw [← hhead, hrowhead, hkeyhead]
        · rw [hhash, hrowhash, hkeyhash]
        · unfold Unexpired at hmoment ⊢
          rwa [← hexpiry]
        · unfold Unexpired at hnow ⊢
          rwa [← hexpiry]
  · intro h
    obtain ⟨value, hvalue, credential, key, hpresents, hlive, hhead, hhash,
      hmoment, hnow, rfl⟩ := h
    obtain ⟨row, hrow, hagrees⟩ := hmirrors.held key hlive
    obtain ⟨hrowhead, hrowhash, hstatus, hexpiry, hbuild⟩ := hagrees.fields
    obtain ⟨-, -, hkeyhead, hkeyhash, hactive⟩ := record_of_live hlive
    unfold authenticateBearer
    rw [parseBearerCredential_eq_ok.mpr ⟨value, hvalue, hpresents⟩]
    refine resolvePrincipal_eq_ok.mpr ⟨row, hrow, ?_, ?_, ?_, ?_, ?_,
      hbuild.symm⟩
    · rw [hrowhead, hkeyhead, hhead]
    · rw [hrowhash, hkeyhash, hhash]
    · rw [hstatus, hactive]
    · unfold Unexpired at hmoment ⊢
      rwa [hexpiry]
    · unfold Unexpired at hnow ⊢
      rwa [hexpiry]

-- ==================================================== a key's lifetime

theorem keyTable_append (ops : List KeyOp) (op : KeyOp) :
    keyTable hashes pepper tenants (ops ++ [op]) =
      step hashes pepper tenants (keyTable hashes pepper tenants ops) op := by
  unfold keyTable
  rw [List.foldl_append]
  rfl

/-- From a revocation on, no row of the key is active. -/
theorem not_active_of_revoked {tenantId apiKeyId : UUID}
    (h : ∃ row ∈ (keyTable hashes pepper tenants ops).rows,
      row.tenantId = tenantId ∧ row.id = apiKeyId)
    (more : List KeyOp) :
    ∀ row ∈ (keyTable hashes pepper tenants
        (ops ++ KeyOp.revoke tenantId apiKeyId :: more)).rows,
      row.id = apiKeyId → row.status ≠ .active := by
  have hrevoked : ∃ row ∈ (keyTable hashes pepper tenants
      (ops ++ [KeyOp.revoke tenantId apiKeyId])).rows,
      row.id = apiKeyId ∧ row.status = .revoked := by
    obtain ⟨row, hrow, hkey⟩ := h
    rw [keyTable_append]
    show ∃ row ∈ (revoke _ tenantId apiKeyId).2.rows, _
    rw [revoke_rows]
    refine ⟨_, List.mem_map_of_mem hrow, ?_⟩
    unfold KeyTable.updated
    rw [if_pos hkey]
    exact ⟨hkey.2, rfl⟩
  obtain ⟨gone, hgone, hid, hstatus⟩ := exists_row_persists
    (fun row hP => ⟨hP.1, rfl⟩) (fun _ row hP => hP) hrevoked more
  intro row hrow hrowid hactive
  rw [List.append_assoc] at hgone
  have hsame := KeyTable.eq_of_clashes hrow hgone
    (Or.inl (hrowid.trans hid.symm))
  rw [hsame, hstatus] at hactive
  cases hactive

/-- A key that was issued opens the gateway to its holder until it expires
or is revoked; once it is revoked nobody is its principal again, whatever
happens to the table afterwards and whatever is presented. -/
theorem issued_key_lifetime {request : KeyRequest} {issued : IssuedApiKey}
    {after : KeyTable}
    (h : create hashes pepper tenants (keyTable hashes pepper tenants ops)
      request = .ok (issued, after)) (more : List KeyOp) :
    (KeyOp.revoke issued.record.tenantId issued.record.id ∉ more →
      ∀ moment now, Unexpired issued.record moment →
        Unexpired issued.record now →
        authenticateBearer hashes pepper unicode
          (.reachable (keyTable hashes pepper tenants
            (ops ++ KeyOp.create request :: more)))
          (some ("Bearer ".toList ++ issued.rawKey)) moment now =
            .ok (buildPrincipal issued.record)) ∧
    (KeyOp.revoke issued.record.tenantId issued.record.id ∈ more →
      ∀ header moment now principal,
        authenticateBearer hashes pepper unicode
          (.reachable (keyTable hashes pepper tenants
            (ops ++ KeyOp.create request :: more))) header moment now =
            .ok principal →
        principal.apiKeyId ≠ issued.record.id) := by
  constructor
  · intro hspared moment now hmoment hnow
    have hlive : Live hashes pepper tenants
        (ops ++ KeyOp.create request :: more) issued := by
      refine ⟨ops, .create request, more, rfl, ?_, hspared⟩
      simp only [issuedBy, h]
    obtain ⟨random, hraw, -⟩ := record_of_live hlive
    refine (authenticateBearer_iff_live _ _ _ _ _).mpr ⟨_, rfl,
      issued.rawKey, issued, ?_, hlive, rfl, rfl, hmoment, hnow, rfl⟩
    rw [hraw]
    exact presents_rawKey unicode random
  · intro hrevoked header moment now principal hprincipal hid
    obtain ⟨before, rest, rfl⟩ := List.append_of_mem hrevoked
    obtain ⟨-, -, -, key, -, hlive, -, -, -, -, rfl⟩ :=
      (authenticateBearer_iff_live _ _ _ _ _).mp hprincipal
    obtain ⟨row, hrow, hagrees⟩ := (active_iff_live _).held key hlive
    obtain ⟨-, -, -, -, hactive⟩ := record_of_live hlive
    -- the row that was inserted is there until the revocation
    have hinserted : ∃ row ∈ (keyTable hashes pepper tenants
        (ops ++ [KeyOp.create request])).rows,
        row.tenantId = issued.record.tenantId ∧
          row.id = issued.record.id := by
      obtain ⟨-, -, -, -, hrows⟩ := create_eq_ok h
      rw [keyTable_append]
      refine ⟨issued.record, ?_, rfl, rfl⟩
      simp only [step, h]
      rw [hrows]
      exact List.mem_append_right _ (List.mem_singleton_self _)
    have hthere := exists_row_persists (fun row hP => hP)
      (fun _ row hP => hP) hinserted before
    have hsplit : ops ++ KeyOp.create request ::
        (before ++ KeyOp.revoke issued.record.tenantId issued.record.id ::
          rest) =
        (ops ++ [KeyOp.create request] ++ before) ++
          KeyOp.revoke issued.record.tenantId issued.record.id :: rest := by
      simp
    rw [hsplit] at hrow
    refine not_active_of_revoked hthere rest row hrow ?_ ?_
    · rw [hagrees.sameKey.2]
      exact hid
    · rw [hagrees.fields.2.2.1, hactive]

/-- A request for a key that may chat, and does not expire. -/
def chatKeyRequest : KeyRequest where
  tenantId := ⟨1⟩
  name := "ci".toList
  scopes := ["chat:invoke".toList]
  expiresAt := none
  id := ⟨2⟩
  random := ⟨List.replicate 32 7, rfl⟩
  createdAt := 0

theorem admits_chatKey (hashes : Hashes) (pepper : Text) :
    KeyTable.empty.Admits [⟨1⟩]
      (chatKeyRequest.record hashes pepper none) := by
  refine ⟨List.mem_singleton_self _, by show 2 ≤ 200; decide, ?_⟩
  intro row hrow
  cases hrow

theorem create_chatKey (hashes : Hashes) (pepper : Text) :
    ∃ after, create hashes pepper [⟨1⟩] (keyTable hashes pepper [⟨1⟩] [])
      chatKeyRequest =
        .ok (⟨chatKeyRequest.record hashes pepper none,
          rawKeyOf chatKeyRequest.random⟩, after) := by
  refine ⟨⟨[chatKeyRequest.record hashes pepper none],
    List.pairwise_singleton _ _⟩, ?_⟩
  have hinsert : (keyTable hashes pepper [⟨1⟩] []).insert [⟨1⟩]
      (chatKeyRequest.record hashes pepper none) =
        .ok ⟨[chatKeyRequest.record hashes pepper none],
          List.pairwise_singleton _ _⟩ :=
    KeyTable.insert_eq_ok_iff.mpr ⟨admits_chatKey hashes pepper, rfl⟩
  have hexpiry : chatKeyRequest.expiry = .ok none := rfl
  simp only [create, hexpiry, bind, Except.bind, hinsert]
  rfl

theorem issued_key_lifetime_chatKey :
    authenticateBearer (.ofTables [] []) "pepper".toList .ascii
      (.reachable (keyTable (.ofTables [] []) "pepper".toList [⟨1⟩]
        [.create chatKeyRequest]))
      (some ("Bearer ".toList ++ rawKeyOf chatKeyRequest.random)) 0 0 =
        .ok (buildPrincipal (chatKeyRequest.record (.ofTables [] [])
          "pepper".toList none)) := by
  obtain ⟨after, hcreate⟩ :=
    create_chatKey (.ofTables [] []) "pepper".toList
  exact (issued_key_lifetime hcreate []).1 List.not_mem_nil 0 0 nofun nofun

end Runs

-- ==================================================== refusals

/-- The public code of a refusal: it tells a request that sent nothing
from the others, and nothing else. -/
def refusalCode (unicode : Unicode) (header : Option Text) : ErrorCode :=
  if unicode.strip (header.getD []) = [] then .authenticationRequired
  else .authenticationFailed

/-- Whatever is wrong with a credential, and whatever state the store is
in, the refusal is the same. -/
theorem authenticateBearer_refusal {hashes : Hashes} {pepper : Text}
    {unicode : Unicode} {store : KeyStore} {header : Option Text}
    {moment now : Rat} {e : Exn}
    (h : authenticateBearer hashes pepper unicode store header moment now =
      .error e) :
    ∃ why, e = gatewayError (refusalCode unicode header) (reason why) := by
  unfold authenticateBearer at h
  cases hparse : parseBearerCredential unicode header with
  | error e' =>
      rw [hparse] at h
      cases h
      unfold parseBearerCredential at hparse
      unfold refusalCode
      simp only at hparse
      split at hparse
      · cases hparse
        rename_i hblank
        rw [if_pos hblank]
        exact ⟨_, rfl⟩
      · rename_i hblank
        rw [if_neg hblank]
        split at hparse
        · cases hparse
          exact ⟨_, rfl⟩
        · split at hparse
          · cases hparse
            exact ⟨_, rfl⟩
          · unfold credentialOf at hparse
            split at hparse
            · cases hparse
              exact ⟨_, rfl⟩
            · cases hparse
  | ok credential =>
      have hblank : unicode.strip (header.getD []) ≠ [] := by
        intro hblank
        unfold parseBearerCredential at hparse
        simp only at hparse
        rw [if_pos hblank] at hparse
        cases hparse
      rw [hparse] at h
      unfold refusalCode
      rw [if_neg hblank]
      change resolvePrincipal hashes pepper store credential moment now = _
        at h
      unfold resolvePrincipal at h
      split at h
      · cases h
        exact ⟨_, rfl⟩
      · split at h
        · cases h
          exact ⟨_, rfl⟩
        · cases h
          exact ⟨_, rfl⟩
        · split at h
          · cases h
            exact ⟨_, rfl⟩
          · split at h
            · cases h
              exact ⟨_, rfl⟩
            · cases h

end PrivacyGateway.Auth
