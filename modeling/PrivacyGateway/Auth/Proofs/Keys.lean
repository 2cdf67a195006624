/-
What the key table holds after a run: the keys that were issued.

A key is live when it was issued by some step and no later step revoked
it. `Agrees` compares a row with the record that was handed out, up to
when it was last used. The rows that are active are exactly those of the
live keys (`active_iff_live`), by induction on the run: a step that
succeeds in `create` adds one of both, `revoke` takes away one of both,
and nothing else touches either.

The first part is about the raw keys themselves: what the body of a key
is made of, and how long it is.
-/
import PrivacyGateway.Auth.Principal
import PrivacyGateway.Lib.Run

namespace PrivacyGateway.Auth

-- ==================================================== raw keys

theorem mem_urlsafeDigits {count n : Nat} {c : Char}
    (h : c ∈ urlsafeDigits count n) : c ∈ urlsafeAlphabet := by
  obtain ⟨d, hd, rfl⟩ := List.mem_map.mp h
  have hlt : d < urlsafeAlphabet.length :=
    Radix.lt_of_mem_digits (by decide) hd
  unfold urlsafeChar
  rw [List.getD_eq_getElem?_getD, List.getElem?_eq_getElem hlt]
  exact List.getElem_mem hlt

@[simp] theorem length_urlsafeDigits (count n : Nat) :
    (urlsafeDigits count n).length = count := by
  simp [urlsafeDigits]

/-- An encoding is its digits and then its padding. -/
theorem urlsafeB64encode_split (bytes : Bytes) :
    ∃ body padding, urlsafeB64encode bytes = body ++ padding ∧
      (∀ c ∈ body, c ∈ urlsafeAlphabet) ∧ (∀ c ∈ padding, c = '=') ∧
      body.length = (4 * bytes.length + 2) / 3 := by
  induction bytes using urlsafeB64encode.induct with
  | case1 a b c rest ih =>
      obtain ⟨body, padding, heq, hbody, hpadding, hlen⟩ := ih
      refine ⟨urlsafeDigits 4
        ((a.toNat * 256 + b.toNat) * 256 + c.toNat) ++ body, padding,
        ?_, ?_, hpadding, ?_⟩
      · rw [urlsafeB64encode, heq, List.append_assoc]
      · intro c hc
        rcases List.mem_append.mp hc with hc | hc
        · exact mem_urlsafeDigits hc
        · exact hbody c hc
      · rw [List.length_append, length_urlsafeDigits, hlen]
        simp only [List.length_cons]
        omega
  | case2 a b =>
      refine ⟨_, ['='], rfl, fun c hc => mem_urlsafeDigits hc, ?_, ?_⟩
      · intro c hc
        exact List.mem_singleton.mp hc
      · rw [length_urlsafeDigits]
        simp
  | case3 a =>
      refine ⟨_, ['=', '='], rfl, fun c hc => mem_urlsafeDigits hc, ?_, ?_⟩
      · intro c hc
        simpa using hc
      · rw [length_urlsafeDigits]
        simp
  | case4 =>
      refine ⟨[], [], rfl, ?_, ?_, by simp⟩
      · intro c hc
        cases hc
      · intro c hc
        cases hc

/-- The padding goes, and nothing else does. -/
theorem encodeBody_spec (bytes : Bytes) :
    (∀ c ∈ encodeBody bytes, c ∈ urlsafeAlphabet) ∧
      (encodeBody bytes).length = (4 * bytes.length + 2) / 3 := by
  obtain ⟨body, padding, heq, hbody, hpadding, hlen⟩ :=
    urlsafeB64encode_split bytes
  have hstrip : encodeBody bytes = body := by
    unfold encodeBody
    have hpad : ∀ c ∈ padding.reverse, (c == '=') = true := by
      intro c hc
      rw [hpadding c (List.mem_reverse.mp hc)]
      rfl
    rw [heq, List.reverse_append, List.dropWhile_append_of_pos hpad]
    cases hrev : body.reverse with
    | nil => rw [← List.reverse_reverse body, hrev]; rfl
    | cons c rest =>
        have hc : c ∈ urlsafeAlphabet := by
          apply hbody c
          rw [← List.mem_reverse, hrev]
          exact List.mem_cons_self
        have hne : (c == '=') = false := by
          rw [beq_eq_false_iff_ne]
          intro hc'
          rw [hc'] at hc
          exact absurd hc (by decide)
        rw [List.dropWhile_cons_of_neg (by rw [hne]; decide), ← hrev,
          List.reverse_reverse]
  rw [hstrip]
  exact ⟨hbody, hlen⟩

/-- A raw key is 52 characters of the alphabet. -/
theorem rawKeyOf_spec (random : KeyBytes) :
    (∀ c ∈ rawKeyOf random, c ∈ urlsafeAlphabet) ∧
      (rawKeyOf random).length = 52 := by
  obtain ⟨hbody, hlen⟩ := encodeBody_spec random.bytes
  rw [random.length_eq] at hlen
  unfold rawKeyOf
  constructor
  · intro c hc
    rcases List.mem_append.mp hc with hc | hc
    · exact List.all_eq_true.mp (show keyLabel.all
        (fun c => urlsafeAlphabet.contains c) = true by decide) c hc
        |> List.contains_iff_mem.mp
    · exact hbody c hc
  · rw [List.length_append, hlen]
    rfl

/-- The prefix is the key's own beginning. -/
theorem prefixOf_rawKeyOf (random : KeyBytes) :
    prefixOf (rawKeyOf random) =
      keyLabel ++ (encodeBody random.bytes).take prefixBodyChars := by
  unfold prefixOf rawKeyOf
  rw [List.take_length_add_append]

-- ==================================================== one operation

section Runs

variable {hashes : Hashes} {pepper : Text} {tenants : List UUID}

namespace KeyTable

theorem insert_eq_ok_iff {table after : KeyTable} {record : ApiKey} :
    table.insert tenants record = .ok after ↔
      table.Admits tenants record ∧ after.rows = table.rows ++ [record] := by
  unfold insert
  by_cases h : table.Admits tenants record
  · rw [dif_pos h]
    constructor
    · intro hok
      cases hok
      exact ⟨h, rfl⟩
    · intro hboth
      cases after with
      | mk rows apart =>
          obtain ⟨-, hrows⟩ := hboth
          cases hrows
          rfl
  · rw [dif_neg h]
    constructor
    · intro hok
      split at hok
      · cases hok
      · cases hok
    · intro hboth
      exact absurd hboth.1 h

theorem clashes_symm {record other : ApiKey} (h : record.Clashes other) :
    other.Clashes record := by
  rcases h with hid | hprefix | ⟨htenant, hname⟩
  · exact Or.inl hid.symm
  · exact Or.inr (Or.inl hprefix.symm)
  · exact Or.inr (Or.inr ⟨htenant.symm, hname.symm⟩)

/-- Two rows that share one of the unique columns are one row. -/
theorem eq_of_clashes {table : KeyTable} {row other : ApiKey}
    (hrow : row ∈ table.rows) (hother : other ∈ table.rows)
    (h : row.Clashes other) : row = other := by
  have hone := List.Pairwise.forall_of_forall_of_flip
    (R := fun x y : ApiKey => x.Clashes y → x = y)
    (fun x _ _ => rfl)
    (table.apart.imp fun hxy hclash => absurd hclash hxy)
    (table.apart.imp fun hxy hclash => absurd (clashes_symm hclash) hxy)
  exact hone hrow hother h

/-- Where the tenant has no such key an update would change nothing. -/
theorem map_updated_of_get {table : KeyTable} {tenantId apiKeyId : UUID}
    (h : table.get tenantId apiKeyId = none) (change : ApiKey → ApiKey) :
    table.rows.map (updated tenantId apiKeyId change) = table.rows := by
  unfold get at h
  rw [List.find?_eq_none] at h
  rw [List.map_congr_left (g := id), List.map_id]
  intro row hrow
  unfold updated
  rw [if_neg (by simpa using h row hrow)]
  rfl

end KeyTable

theorem revoke_rows (table : KeyTable) (tenantId apiKeyId : UUID) :
    (revoke table tenantId apiKeyId).2.rows =
      table.rows.map
        (KeyTable.updated tenantId apiKeyId ApiKey.revoked) := by
  unfold revoke
  cases hget : table.get tenantId apiKeyId with
  | none => exact (KeyTable.map_updated_of_get hget _).symm
  | some record => rfl

/-- What `create` hands out, and what it adds. -/
theorem create_eq_ok {table after : KeyTable} {request : KeyRequest}
    {issued : IssuedApiKey}
    (h : create hashes pepper tenants table request = .ok (issued, after)) :
    ∃ expiresAt,
      issued.record = request.record hashes pepper expiresAt ∧
        issued.rawKey = rawKeyOf request.random ∧
        table.Admits tenants issued.record ∧
        after.rows = table.rows ++ [issued.record] := by
  unfold create at h
  cases hexpiry : request.expiry with
  | error e =>
      rw [hexpiry] at h
      cases h
  | ok expiresAt =>
      rw [hexpiry] at h
      cases hinsert : table.insert tenants
          (request.record hashes pepper expiresAt) with
      | error e =>
          simp only [bind, Except.bind, hinsert] at h
          cases h
      | ok inserted =>
          simp only [bind, Except.bind, hinsert] at h
          cases h
          obtain ⟨hadmits, hrows⟩ := KeyTable.insert_eq_ok_iff.mp hinsert
          exact ⟨expiresAt, rfl, rfl, hadmits, hrows⟩

/-- What a step does: it adds the row of a key that it issues, changes the
rows of one key, or leaves the rows alone. -/
theorem step_cases (hashes : Hashes) (pepper : Text) (tenants : List UUID)
    (table : KeyTable) (op : KeyOp) :
    (∃ key, issuedBy hashes pepper tenants table op = some key ∧
      (step hashes pepper tenants table op).rows =
        table.rows ++ [key.record]) ∨
    issuedBy hashes pepper tenants table op = none ∧
      ((∃ tenantId apiKeyId, op = .revoke tenantId apiKeyId ∧
        (step hashes pepper tenants table op).rows = table.rows.map
          (KeyTable.updated tenantId apiKeyId ApiKey.revoked)) ∨
      (∀ tenantId apiKeyId, op ≠ .revoke tenantId apiKeyId) ∧
        ((∃ tenantId apiKeyId instant,
          (step hashes pepper tenants table op).rows = table.rows.map
            (KeyTable.updated tenantId apiKeyId (ApiKey.usedAt instant))) ∨
        (step hashes pepper tenants table op).rows = table.rows)) := by
  cases op with
  | create request =>
      simp only [issuedBy, step]
      cases hcreate : create hashes pepper tenants table request with
      | error e => exact Or.inr ⟨rfl, Or.inr ⟨nofun, Or.inr rfl⟩⟩
      | ok result =>
          obtain ⟨issued, after⟩ := result
          obtain ⟨-, -, -, -, hrows⟩ := create_eq_ok hcreate
          exact Or.inl ⟨issued, rfl, hrows⟩
  | revoke tenantId apiKeyId =>
      exact Or.inr ⟨rfl, Or.inl ⟨tenantId, apiKeyId, rfl,
        revoke_rows table tenantId apiKeyId⟩⟩
  | touchLastUsed tenantId apiKeyId moment =>
      refine Or.inr ⟨rfl, Or.inr ⟨nofun, ?_⟩⟩
      cases moment with
      | naive wall => exact Or.inr rfl
      | aware instant =>
          simp only [step, touchLastUsed]
          cases table.get tenantId apiKeyId with
          | none => exact Or.inr rfl
          | some record => exact Or.inl ⟨tenantId, apiKeyId, instant, rfl⟩

-- ==================================================== live keys

variable (hashes pepper tenants)

/-- The key was issued in the run, and not revoked since. -/
def Live (ops : List KeyOp) (issued : IssuedApiKey) : Prop :=
  ∃ before op after, ops = before ++ op :: after ∧
    issuedBy hashes pepper tenants (keyTable hashes pepper tenants before)
      op = some issued ∧
    KeyOp.revoke issued.record.tenantId issued.record.id ∉ after

variable {hashes pepper tenants}

/-- One more step issues a key, or spares one. -/
theorem live_append_iff {ops : List KeyOp} {op : KeyOp}
    {issued : IssuedApiKey} :
    Live hashes pepper tenants (ops ++ [op]) issued ↔
      (Live hashes pepper tenants ops issued ∧
        op ≠ .revoke issued.record.tenantId issued.record.id) ∨
      issuedBy hashes pepper tenants (keyTable hashes pepper tenants ops)
        op = some issued := by
  constructor
  · intro h
    obtain ⟨before, create, after, hsplit, hissued, hspared⟩ := h
    cases after using List.reverseRecOn with
    | nil =>
        obtain ⟨rfl, hop⟩ := List.append_inj' hsplit rfl
        cases hop
        exact Or.inr hissued
    | append_singleton after last =>
        rw [← List.cons_append, ← List.append_assoc] at hsplit
        obtain ⟨rfl, hop⟩ := List.append_inj' hsplit rfl
        cases hop
        rw [List.mem_append, not_or, List.mem_singleton] at hspared
        exact Or.inl ⟨⟨before, create, after, rfl, hissued, hspared.1⟩,
          fun h => hspared.2 h.symm⟩
  · intro h
    rcases h with ⟨⟨before, create, after, rfl, hissued, hspared⟩, hop⟩ |
      hissued
    · refine ⟨before, create, after ++ [op], by simp, hissued, ?_⟩
      rw [List.mem_append, not_or, List.mem_singleton]
      exact ⟨hspared, fun h => hop h.symm⟩
    · exact ⟨ops, op, [], rfl, hissued, List.not_mem_nil⟩

/-- The row is the record, up to when the key was last used. -/
def Agrees (row record : ApiKey) : Prop :=
  row = { record with lastUsedAt := row.lastUsedAt }

/-- The active rows are those of the live keys. -/
structure Mirrors (table : KeyTable) (live : IssuedApiKey → Prop) :
    Prop where
  issued : ∀ row ∈ table.rows, row.status = .active →
    ∃ key, live key ∧ Agrees row key.record
  held : ∀ key, live key → ∃ row ∈ table.rows, Agrees row key.record

/-- A step that issues nothing changes rows one by one. What it does to
the active ones must be what it does to the live keys. -/
theorem Mirrors.map {table after : KeyTable}
    {live live' : IssuedApiKey → Prop} {f : ApiKey → ApiKey}
    (h : Mirrors table live) (hrows : after.rows = table.rows.map f)
    (hactive : ∀ row, (f row).status = .active → row.status = .active)
    (hissued : ∀ row key, live key → Agrees row key.record →
      (f row).status = .active → live' key ∧ Agrees (f row) key.record)
    (hheld : ∀ key, live' key → live key ∧
      ∀ row, Agrees row key.record → Agrees (f row) key.record) :
    Mirrors after live' := by
  constructor
  · intro row hrow hstatus
    rw [hrows] at hrow
    obtain ⟨old, hold, rfl⟩ := List.mem_map.mp hrow
    obtain ⟨key, hkey, hagrees⟩ := h.issued old hold (hactive old hstatus)
    exact ⟨key, hissued old key hkey hagrees hstatus⟩
  · intro key hkey
    obtain ⟨hlive, hkeeps⟩ := hheld key hkey
    obtain ⟨old, hold, hagrees⟩ := h.held key hlive
    refine ⟨f old, ?_, hkeeps old hagrees⟩
    rw [hrows]
    exact List.mem_map_of_mem hold

theorem Mirrors.congr {table : KeyTable} {live live' : IssuedApiKey → Prop}
    (h : Mirrors table live) (hlive : ∀ key, live key ↔ live' key) :
    Mirrors table live' := by
  constructor
  · intro row hrow hstatus
    obtain ⟨key, hkey, hagrees⟩ := h.issued row hrow hstatus
    exact ⟨key, (hlive key).mp hkey, hagrees⟩
  · intro key hkey
    exact h.held key ((hlive key).mpr hkey)

theorem Agrees.sameKey {row record : ApiKey} (h : Agrees row record) :
    row.tenantId = record.tenantId ∧ row.id = record.id := by
  rw [h]
  exact ⟨rfl, rfl⟩

/-- `revoke` takes a row and a live key away, the same one. -/
theorem Mirrors.revoke {table after : KeyTable}
    {live : IssuedApiKey → Prop} (h : Mirrors table live)
    {tenantId apiKeyId : UUID}
    (hrows : after.rows = table.rows.map
      (KeyTable.updated tenantId apiKeyId ApiKey.revoked)) :
    Mirrors after
      (fun key => live key ∧ KeyOp.revoke tenantId apiKeyId ≠
        .revoke key.record.tenantId key.record.id) := by
  refine h.map hrows ?_ ?_ ?_
  · intro row hstatus
    unfold KeyTable.updated at hstatus
    split at hstatus
    · cases hstatus
    · exact hstatus
  · intro row key hkey hagrees hstatus
    obtain ⟨htenant, hid⟩ := hagrees.sameKey
    unfold KeyTable.updated at hstatus ⊢
    by_cases hhit : row.tenantId = tenantId ∧ row.id = apiKeyId
    · rw [if_pos hhit] at hstatus
      cases hstatus
    · rw [if_neg hhit]
      refine ⟨⟨hkey, fun hop => hhit ?_⟩, hagrees⟩
      injection hop with h1 h2
      exact ⟨htenant.trans h1.symm, hid.trans h2.symm⟩
  · intro key hkey
    refine ⟨hkey.1, fun row hagrees => ?_⟩
    obtain ⟨htenant, hid⟩ := hagrees.sameKey
    unfold KeyTable.updated
    rw [if_neg]
    · exact hagrees
    · intro hhit
      apply hkey.2
      rw [← hhit.1, ← hhit.2, htenant, hid]

/-- When a key was last used is nobody's business here. -/
theorem Mirrors.touch {table after : KeyTable}
    {live : IssuedApiKey → Prop} (h : Mirrors table live)
    {tenantId apiKeyId : UUID} {instant : Rat}
    (hrows : after.rows = table.rows.map
      (KeyTable.updated tenantId apiKeyId (ApiKey.usedAt instant))) :
    Mirrors after live := by
  have hkeeps : ∀ row record, Agrees row record →
      Agrees (KeyTable.updated tenantId apiKeyId (ApiKey.usedAt instant) row)
        record := by
    intro row record hagrees
    unfold KeyTable.updated
    split
    · rw [hagrees]
      rfl
    · exact hagrees
  refine h.map hrows ?_ ?_ ?_
  · intro row hstatus
    unfold KeyTable.updated at hstatus
    split at hstatus
    · exact hstatus
    · exact hstatus
  · intro row key hkey hagrees _
    exact ⟨hkey, hkeeps row key.record hagrees⟩
  · intro key hkey
    exact ⟨hkey, fun row => hkeeps row key.record⟩

/-- `create` adds a row and a live key, the same one. -/
theorem Mirrors.create {table after : KeyTable}
    {live : IssuedApiKey → Prop} (h : Mirrors table live)
    {key : IssuedApiKey}
    (hrows : after.rows = table.rows ++ [key.record]) :
    Mirrors after (fun other => live other ∨ key = other) := by
  constructor
  · intro row hrow hstatus
    rw [hrows] at hrow
    rcases List.mem_append.mp hrow with hrow | hrow
    · obtain ⟨other, hother, hagrees⟩ := h.issued row hrow hstatus
      exact ⟨other, Or.inl hother, hagrees⟩
    · rw [List.mem_singleton.mp hrow]
      exact ⟨key, Or.inr rfl, rfl⟩
  · intro other hother
    rw [hrows]
    rcases hother with hother | rfl
    · obtain ⟨row, hrow, hagrees⟩ := h.held other hother
      exact ⟨row, List.mem_append_left _ hrow, hagrees⟩
    · exact ⟨key.record, List.mem_append_right _ (List.mem_singleton_self _),
        rfl⟩

/-- Rows and live keys that stay as they are. -/
theorem Mirrors.same {table after : KeyTable} {live : IssuedApiKey → Prop}
    (h : Mirrors table live) (hrows : after.rows = table.rows) :
    Mirrors after live := by
  constructor
  · rw [hrows]
    exact h.issued
  · rw [hrows]
    exact h.held

/-- After any run the active rows are those of the live keys. -/
theorem active_iff_live (ops : List KeyOp) :
    Mirrors (keyTable hashes pepper tenants ops)
      (Live hashes pepper tenants ops) := by
  refine Run.history (R := fun ops table =>
    Mirrors table (Live hashes pepper tenants ops)) ?_ ?_ ops
  · constructor
    · intro row hrow
      cases hrow
    · intro key hkey
      obtain ⟨before, op, after, hsplit, -⟩ := hkey
      exact absurd hsplit.symm (by simp)
  intro ops op h
  have hspared : (∀ tenantId apiKeyId, op ≠ .revoke tenantId apiKeyId) →
      ∀ key, Live hashes pepper tenants ops key ↔
        Live hashes pepper tenants ops key ∧
          op ≠ .revoke key.record.tenantId key.record.id :=
    fun hop key => ⟨fun hkey => ⟨hkey, hop _ _⟩, fun hkey => hkey.1⟩
  rcases step_cases hashes pepper tenants
      (keyTable hashes pepper tenants ops) op with
    ⟨key, hissued, hrows⟩ | ⟨hissued, hrest⟩
  · have hop : ∀ tenantId apiKeyId, op ≠ .revoke tenantId apiKeyId := by
      rintro tenantId apiKeyId rfl
      cases hissued
    refine (h.create hrows).congr (fun other => ?_)
    rw [live_append_iff, hissued, ← hspared hop, Option.some_inj]
  · have hlive : ∀ key, Live hashes pepper tenants (ops ++ [op]) key ↔
        Live hashes pepper tenants ops key ∧
          op ≠ .revoke key.record.tenantId key.record.id := by
      intro key
      rw [live_append_iff, hissued]
      exact ⟨fun hkey => hkey.resolve_right nofun, Or.inl⟩
    rcases hrest with ⟨tenantId, apiKeyId, rfl, hrows⟩ | ⟨hop, hrest⟩
    · exact (h.revoke hrows).congr (fun key => (hlive key).symm)
    · have h := h.congr (fun key =>
        (hspared hop key).trans (hlive key).symm)
      rcases hrest with ⟨tenantId, apiKeyId, instant, hrows⟩ | hrows
      · exact h.touch hrows
      · exact h.same hrows

/-- What neither a revocation nor a use takes from a row, some row has
for good: rows are never deleted. -/
theorem exists_row_persists {ops : List KeyOp} {P : ApiKey → Prop}
    (hrevoked : ∀ row : ApiKey, P row → P row.revoked)
    (hused : ∀ (moment : Rat) row, P row → P (ApiKey.usedAt moment row))
    (h : ∃ row ∈ (keyTable hashes pepper tenants ops).rows, P row)
    (more : List KeyOp) :
    ∃ row ∈ (keyTable hashes pepper tenants (ops ++ more)).rows, P row := by
  have hmap : ∀ {rows : List ApiKey} {change : ApiKey → ApiKey} {t i : UUID},
      (∀ row, P row → P (change row)) → (∃ row ∈ rows, P row) →
        ∃ row ∈ rows.map (KeyTable.updated t i change), P row := by
    intro rows change t i hchange hrows
    obtain ⟨row, hrow, hP⟩ := hrows
    refine ⟨_, List.mem_map_of_mem hrow, ?_⟩
    unfold KeyTable.updated
    split
    · exact hchange row hP
    · exact hP
  have hafter : keyTable hashes pepper tenants (ops ++ more) =
      more.foldl (step hashes pepper tenants)
        (keyTable hashes pepper tenants ops) :=
    List.foldl_append
  rw [hafter]
  refine (Run.invariant (P := fun table : KeyTable =>
    ∃ row ∈ table.rows, P row) ?_ h more).last
  intro table op hrow
  rcases step_cases hashes pepper tenants table op with
    ⟨key, -, hrows⟩ | ⟨-, ⟨t, i, -, hrows⟩ | ⟨-, ⟨t, i, instant, hrows⟩ |
      hrows⟩⟩
  · rw [hrows]
    obtain ⟨row, hmem, hP⟩ := hrow
    exact ⟨row, List.mem_append_left _ hmem, hP⟩
  · rw [hrows]
    exact hmap hrevoked hrow
  · rw [hrows]
    exact hmap (hused instant) hrow
  · rw [hrows]
    exact hrow

end Runs

end PrivacyGateway.Auth
