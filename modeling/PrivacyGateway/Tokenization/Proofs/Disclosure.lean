/-
A protected text tells nothing of the values it hides.

Two runs that differ only in hidden values go the same way. Their servers
correspond, index key by index key (`naming`), so the mint draws the same
tokens (`tracks_mint`), and the splice puts them into the same text around
them (`spliceFrom_alike`). What is left to tell the runs apart is which of
the values repeat, and the runs agree on that.
-/
import PrivacyGateway.Tokenization.Disclosure
import PrivacyGateway.Tokenization.Proofs.Sessions
import PrivacyGateway.Vault.Proofs.Hiding

namespace PrivacyGateway.Tokenization

open Effect Splice Vault RedisTokenVault Renaming Hiding

-- ==================================================== identities

/-- Identities that differ in the value alone. -/
structure SameLabel (a a' : Identity) : Prop where
  tenantId : a.tenantId = a'.tenantId
  sessionId : a.sessionId = a'.sessionId
  entityType : a.entityType = a'.entityType

/-- The identities of two runs, in pairs, tell the same apart. -/
structure Renames (vault : RedisTokenVault) (fingerprinter : Fingerprinter)
    (pairs : List (Identity × Identity)) : Prop where
  labels : ∀ p ∈ pairs, SameLabel p.1 p.2
  together : ∀ p ∈ pairs, ∀ q ∈ pairs, p.1 = q.1 ↔ p.2 = q.2
  left : Collisionless vault fingerprinter (pairs.map Prod.fst)
  right : Collisionless vault fingerprinter (pairs.map Prod.snd)
  fits : ∀ p ∈ pairs, p.1.Fits ∧ p.2.Fits

section Identities

variable {vault : RedisTokenVault} {fingerprinter : Fingerprinter}
  {pairs : List (Identity × Identity)}

/-- Fingerprints are there for both, or for neither. -/
theorem fingerprint_alike {a a' : Identity} (hlabel : SameLabel a a')
    (hfits : a.Fits) (hfits' : a'.Fits) :
    Same (fun _ _ => True) (a.fingerprint fingerprinter vault.hashes)
      (a'.fingerprint fingerprinter vault.hashes) := by
  unfold Identity.fingerprint Fingerprinter.fingerprint
  rw [← hlabel.tenantId, ← hlabel.sessionId, ← hlabel.entityType]
  have hframes : ∀ {v v' bytes : Bytes}, v'.length < 256 ^ 4 →
      Frame.frame 4 [a.tenantId.bytes, a.sessionId.bytes,
        encodeUtf8 a.entityType, v] = some bytes →
      ∃ bytes', Frame.frame 4 [a.tenantId.bytes, a.sessionId.bytes,
        encodeUtf8 a.entityType, v'] = some bytes' := by
    intro v v' bytes hv' hbytes
    have hall := Frame.length_lt_of_frame _ hbytes
    refine Frame.frame_isSome _ (fun field hfield => ?_)
    simp only [List.mem_cons, List.not_mem_nil, or_false] at hfield hall
    rcases hfield with h | h | h | rfl
    · exact hall field (Or.inl h)
    · exact hall field (Or.inr (Or.inl h))
    · exact hall field (Or.inr (Or.inr (Or.inl h)))
    · exact hv'
  cases h : Frame.frame 4 [a.tenantId.bytes, a.sessionId.bytes,
      encodeUtf8 a.entityType, encodeUtf8 a.normalForm] with
  | some bytes =>
      obtain ⟨bytes', h'⟩ := hframes hfits' h
      rw [h']
      exact .ok trivial
  | none =>
      cases h' : Frame.frame 4 [a.tenantId.bytes, a.sessionId.bytes,
          encodeUtf8 a.entityType, encodeUtf8 a'.normalForm] with
      | some bytes' =>
          obtain ⟨bytes, hbytes⟩ := hframes hfits h'
          rw [h] at hbytes
          cases hbytes
      | none => exact .error _

theorem length_hexdigest (bytes : Bytes) :
    (hexdigest bytes).length = 2 * bytes.length := by
  induction bytes with
  | nil => rfl
  | cons b bytes ih =>
      show (hexdigest bytes).length + 2 = 2 * (bytes.length + 1)
      omega

theorem fingerprint_ne_nil {a : Identity} {hmac : Text}
    (h : a.fingerprint fingerprinter vault.hashes = .ok hmac) :
    hmac ≠ [] := by
  unfold Identity.fingerprint Fingerprinter.fingerprint at h
  split at h
  · rename_i message hframe
    cases h
    refine List.ne_nil_of_length_pos ?_
    rw [length_hexdigest, vault.hashes.hmacSha256_length]
    omega
  · cases h

theorem length_indexDigest (hmac : Text) :
    (vault.indexDigest hmac).length = 64 := by
  unfold indexDigest
  rw [length_hexdigest, vault.hashes.sha256_length]

/-- An index key names one identity. -/
theorem identity_of_index {known : List Identity}
    (hcollision : Collisionless vault fingerprinter known)
    {a b : Identity} {hmac other : Text} (ha : a ∈ known) (hb : b ∈ known)
    (hfa : a.fingerprint fingerprinter vault.hashes = .ok hmac)
    (hfb : b.fingerprint fingerprinter vault.hashes = .ok other)
    (h : VaultKey.index a.tenantId a.sessionId
        (vault.indexSegment a.entityType hmac) =
      .index b.tenantId b.sessionId
        (vault.indexSegment b.entityType other)) : a = b := by
  injection h with htenant hsession hsegment
  unfold indexSegment at hsegment
  obtain ⟨-, hrest⟩ := List.append_inj' hsegment
    (by rw [List.length_cons, List.length_cons, length_indexDigest,
      length_indexDigest])
  have hsame := hcollision.digests _ ha _ hb _ _ hfa hfb
    (List.cons.inj hrest).2
  rw [← hsame] at hfb
  exact hcollision.fingerprints _ ha _ hb _ hfa hfb

theorem mem_fst {p : Identity × Identity} (h : p ∈ pairs) :
    p.1 ∈ pairs.map Prod.fst :=
  List.mem_map_of_mem h

theorem mem_snd {p : Identity × Identity} (h : p ∈ pairs) :
    p.2 ∈ pairs.map Prod.snd :=
  List.mem_map_of_mem h

theorem counterpart_biUnique (h : Renames vault fingerprinter pairs) :
    Relator.BiUnique (Counterpart vault fingerprinter pairs) := by
  constructor
  · intro k k' key hk hk'
    generalize hkey : key = name at hk'
    cases hk with
    | token t s id =>
        cases hk' with
        | token t' s' id' =>
            cases hkey
            rfl
        | metaSet t' s' => cases hkey
        | index mem hf hf' => cases hkey
    | metaSet t s =>
        cases hk' with
        | token t' s' id' => cases hkey
        | metaSet t' s' =>
            cases hkey
            rfl
        | index mem hf hf' => cases hkey
    | @index a a' hmac hmac' mem hf hf' =>
        cases hk' with
        | token t s id => cases hkey
        | metaSet t s => cases hkey
        | @index b b' other other' mem' hg hg' =>
            have hright := identity_of_index h.right (mem_snd mem)
              (mem_snd mem') hf' hg' hkey
            have hleft := (h.together _ mem _ mem').mpr hright
            simp only at hleft
            rw [hleft] at hf ⊢
            cases hf.symm.trans hg
            rfl
  · intro k key key' hk hk'
    generalize hkey : k = name at hk'
    cases hk with
    | token t s id =>
        cases hk' with
        | token t' s' id' =>
            cases hkey
            rfl
        | metaSet t' s' => cases hkey
        | index mem hf hf' => cases hkey
    | metaSet t s =>
        cases hk' with
        | token t' s' id' => cases hkey
        | metaSet t' s' =>
            cases hkey
            rfl
        | index mem hf hf' => cases hkey
    | @index a a' hmac hmac' mem hf hf' =>
        cases hk' with
        | token t s id => cases hkey
        | metaSet t s => cases hkey
        | @index b b' other other' mem' hg hg' =>
            have hleft := identity_of_index h.left (mem_fst mem)
              (mem_fst mem') hf hg hkey
            have hright := (h.together _ mem _ mem').mp hleft
            simp only at hright
            rw [hright] at hf' ⊢
            cases hf'.symm.trans hg'
            rfl

/-- The keys of the two servers. -/
def naming (h : Renames vault fingerprinter pairs) : Correspondence where
  keys key key' := ∃ k k', Counterpart vault fingerprinter pairs k k' ∧
    key = vault.render k ∧ key' = vault.render k'
  secrets _ _ := True
  records key := ∃ t s id, key = vault.render (.token t s id)
  oneToOne := by
    obtain ⟨hleft, hright⟩ := counterpart_biUnique h
    constructor
    · rintro _ _ _ ⟨k, m, hk, rfl, rfl⟩ ⟨k', m', hk', rfl, hsame⟩
      cases render_injective hsame
      rw [hleft hk hk']
    · rintro _ _ _ ⟨k, m, hk, rfl, rfl⟩ ⟨k', m', hk', hsame, rfl⟩
      cases render_injective hsame
      rw [hright hk hk']

theorem naming_blind (h : Renames vault fingerprinter pairs) (t s : UUID) :
    Blind (naming h) vault t s where
  record id := ⟨_, _, .token t s id, tokenKey_eq_render vault t s id,
    tokenKey_eq_render vault t s id⟩
  metaSet := ⟨_, _, .metaSet t s, metaKey_eq_render vault t s,
    metaKey_eq_render vault t s⟩
  secrets _ _ := trivial
  sealed id := ⟨t, s, id, tokenKey_eq_render vault t s id⟩
  plain entityType hmac := by
    rintro ⟨t', s', id, hkey⟩
    rw [fingerprintKey_eq_render] at hkey
    cases render_injective hkey

end Identities

-- ==================================================== plans

section Transform

variable {vault : RedisTokenVault} {unicode : Unicode}
  {fingerprinter : Fingerprinter} {pairs : List (Identity × Identity)}
  {t s : UUID} {policy : PolicySnapshot} {text text' : Text}
  {selected selected' : List DetectedEntity}

/-- A planned span on the two sides. -/
structure AlikeItem (unicode : Unicode) (pairs : List (Identity × Identity))
    (t s : UUID) (text text' : Text) (item item' : Planned × Nat) :
    Prop where
  index : item.2 = item'.2
  action : item.1.2 = item'.1.2
  entityType : item.1.1.entityType = item'.1.1.entityType
  plain : item.1.2 ≠ .pseudonymize
  paired : item.1.2 = .tokenize →
    (identityIn unicode t s item.1.1.entityType
        (slice text item.1.1.start item.1.1.stop),
      identityIn unicode t s item'.1.1.entityType
        (slice text' item'.1.1.start item'.1.1.stop)) ∈ pairs

theorem AlikeItem.tokenize {item item' : Planned × Nat}
    (h : AlikeItem unicode pairs t s text text' item item')
    (hneeds : needsMapping item.1.2 = true) : item.1.2 = .tokenize := by
  unfold needsMapping at hneeds
  rcases Bool.or_eq_true_iff.mp hneeds with h' | h'
  · exact eq_of_beq h'
  · exact absurd (eq_of_beq h') h.plain

theorem items_alike
    (htypes : selected.map DetectedEntity.entityType =
      selected'.map DetectedEntity.entityType)
    (hplain : ∀ e ∈ selected,
      policy.actionFor e.entityType ≠ .pseudonymize)
    (hpairs : ∀ p ∈ (identitiesIn unicode t s policy text selected).zip
      (identitiesIn unicode t s policy text' selected'), p ∈ pairs)
    (n : Nat) :
    List.Forall₂ (AlikeItem unicode pairs t s text text')
      ((withActions policy selected).zipIdx n)
      ((withActions policy selected').zipIdx n) := by
  induction selected generalizing selected' n with
  | nil =>
      cases selected' with
      | nil => exact .nil
      | cons e' selected' => cases htypes
  | cons e selected ih =>
      cases selected' with
      | nil => cases htypes
      | cons e' selected' =>
          obtain ⟨htype, hrest⟩ := List.cons.inj htypes
          obtain ⟨hhead, htail⟩ := List.forall_mem_cons.mp hplain
          unfold identitiesIn tokenizedSpans at hpairs ih
          by_cases htokenize : policy.actionFor e.entityType = .tokenize
          · rw [List.filter_cons_of_pos (by exact decide_eq_true htokenize),
              List.filter_cons_of_pos (by
                rw [← htype]
                exact decide_eq_true htokenize),
              List.map_cons, List.map_cons, List.zip_cons_cons] at hpairs
            obtain ⟨hpair, hpairs⟩ := List.forall_mem_cons.mp hpairs
            refine .cons ⟨rfl, ?_, htype, hhead, fun _ => hpair⟩
              (ih hrest htail hpairs (n + 1))
            exact congrArg policy.actionFor htype
          · rw [List.filter_cons_of_neg (by
                rw [decide_eq_true_eq]
                exact htokenize),
              List.filter_cons_of_neg (by
                rw [← htype, decide_eq_true_eq]
                exact htokenize)] at hpairs
            refine .cons ⟨rfl, ?_, htype, hhead,
              fun h => absurd h htokenize⟩
              (ih hrest htail hpairs (n + 1))
            exact congrArg policy.actionFor htype

/-- The checks of a plan look at the types alone. -/
theorem planFor_alike {entities entities' : List DetectedEntity}
    (hselects : selectEntities text entities policy = .ok selected)
    (hselects' : selectEntities text' entities' policy = .ok selected')
    (htypes : selected.map DetectedEntity.entityType =
      selected'.map DetectedEntity.entityType) :
    Same (fun plan plan' => plan = withActions policy selected ∧
        plan' = withActions policy selected')
      (planFor text entities policy) (planFor text' entities' policy) := by
  have hlength : selected.length = selected'.length := by
    have h := congrArg List.length htypes
    rwa [List.length_map, List.length_map] at h
  have hblocked : rejectBlocked (withActions policy selected) =
      rejectBlocked (withActions policy selected') := by
    clear hselects hselects' hlength
    unfold withActions
    induction selected generalizing selected' with
    | nil =>
        cases selected' with
        | nil => rfl
        | cons e' selected' => cases htypes
    | cons e selected ih =>
        cases selected' with
        | nil => cases htypes
        | cons e' selected' =>
            obtain ⟨htype, hrest⟩ := List.cons.inj htypes
            simp only [List.map_cons, rejectBlocked]
            rw [htype, ih hrest]
  unfold planFor
  rw [hselects, hselects']
  show Same _ (do
      enforceLimit selected policy
      rejectBlocked (withActions policy selected)
      return withActions policy selected) (do
      enforceLimit selected' policy
      rejectBlocked (withActions policy selected')
      return withActions policy selected')
  unfold enforceLimit
  rw [← hlength, ← hblocked]
  by_cases hlimit : selected.length ≤ policy.maxEntities
  · rw [if_pos hlimit]
    cases rejectBlocked (withActions policy selected) with
    | error e => exact .error e
    | ok u => exact .ok ⟨rfl, rfl⟩
  · rw [if_neg hlimit]
    exact .error _

-- ==================================================== the mint

/-- What awaits a token on the two sides. -/
structure AlikePending (vault : RedisTokenVault)
    (fingerprinter : Fingerprinter) (pairs : List (Identity × Identity))
    (t s : UUID) (p p' : Pending) : Prop where
  index : p.index = p'.index
  entityType : p.entityType = p'.entityType
  identities : ∃ a a', (a, a') ∈ pairs ∧
    a.tenantId = t ∧ a.sessionId = s ∧ a.entityType = p.entityType ∧
    a.fingerprint fingerprinter vault.hashes = .ok p.normalizedHmac ∧
    a'.fingerprint fingerprinter vault.hashes = .ok p'.normalizedHmac

variable (hnames : Renames vault fingerprinter pairs)

include hnames

theorem pendingFor_alike (index : Nat) {ty original original' : Text}
    (hpair : (identityIn unicode t s ty original,
      identityIn unicode t s ty original') ∈ pairs) :
    Same (AlikePending vault fingerprinter pairs t s)
      (pendingFor unicode vault.hashes fingerprinter t s index original ty)
      (pendingFor unicode vault.hashes fingerprinter t s index original'
        ty) := by
  obtain ⟨hfits, hfits'⟩ := hnames.fits _ hpair
  have hsame : Same (fun _ _ => True)
      ((identityIn unicode t s ty original).fingerprint fingerprinter
        vault.hashes)
      ((identityIn unicode t s ty original').fingerprint fingerprinter
        vault.hashes) :=
    fingerprint_alike (hnames.labels _ hpair) hfits hfits'
  unfold pendingFor
  rw [show identityOf unicode vault.hashes fingerprinter t s ty original =
      (identityIn unicode t s ty original).fingerprint fingerprinter
        vault.hashes from rfl,
    show identityOf unicode vault.hashes fingerprinter t s ty original' =
      (identityIn unicode t s ty original').fingerprint fingerprinter
        vault.hashes from rfl]
  cases hf : (identityIn unicode t s ty original).fingerprint fingerprinter
      vault.hashes with
  | error e =>
      cases hf' : (identityIn unicode t s ty original').fingerprint
          fingerprinter vault.hashes with
      | error e' =>
          simp only [hf, hf'] at hsame
          cases hsame
          exact .error e
      | ok hmac' =>
          simp only [hf, hf'] at hsame
          cases hsame
  | ok hmac =>
      cases hf' : (identityIn unicode t s ty original').fingerprint
          fingerprinter vault.hashes with
      | error e' =>
          simp only [hf, hf'] at hsame
          cases hsame
      | ok hmac' =>
          exact .ok ⟨rfl, rfl, _, _, hpair, rfl, rfl, rfl, hf, hf'⟩

theorem pendingOf_alike {items items' : List (Planned × Nat)}
    (h : List.Forall₂ (AlikeItem unicode pairs t s text text') items
      items') :
    Same (List.Forall₂ (AlikePending vault fingerprinter pairs t s))
      (pendingOf unicode vault.hashes fingerprinter t s text items)
      (pendingOf unicode vault.hashes fingerprinter t s text' items') := by
  induction h with
  | nil => exact .ok .nil
  | @cons item item' items items' hhead htail ih =>
      unfold pendingOf
      rw [← hhead.action]
      by_cases hneeds : needsMapping item.1.2 = true
      · have hpair := hhead.paired (hhead.tokenize hneeds)
        rw [if_pos hneeds, if_pos hneeds, ← hhead.index,
          ← hhead.entityType]
        rw [← hhead.entityType] at hpair
        have hfirst := pendingFor_alike hnames item.2 hpair
        generalize pendingFor unicode vault.hashes fingerprinter t s item.2
          (slice text item.1.1.start item.1.1.stop) _ = left at hfirst ⊢
        generalize pendingFor unicode vault.hashes fingerprinter t s item.2
          (slice text' item'.1.1.start item'.1.1.stop) _ = right
          at hfirst ⊢
        cases hfirst with
        | error e => exact .error e
        | ok pending =>
            simp only
            generalize pendingOf unicode vault.hashes fingerprinter t s text
              items = rest at ih ⊢
            generalize pendingOf unicode vault.hashes fingerprinter t s
              text' items' = rest' at ih ⊢
            cases ih with
            | error e => exact .error e
            | ok pendings => exact .ok (.cons pending pendings)
      · rw [if_neg hneeds, if_neg hneeds]
        exact ih

/-- The requests of pending spans. -/
def AlikeRequest (vault : RedisTokenVault) (fingerprinter : Fingerprinter)
    (pairs : List (Identity × Identity)) (t s : UUID)
    (entry entry' : VaultWriteRequest) : Prop :=
  ∃ p p', AlikePending vault fingerprinter pairs t s p p' ∧
    entry = p.request ∧ entry' = p'.request

theorem askAlike {entry entry' : VaultWriteRequest}
    (h : AlikeRequest vault fingerprinter pairs t s entry entry') :
    AskAlike (naming hnames) vault t s entry entry' := by
  obtain ⟨p, p', hp, rfl, rfl⟩ := h
  obtain ⟨a, a', hmem, rfl, rfl, htype, hf, hf'⟩ := hp.identities
  have hlabel := hnames.labels _ hmem
  refine ⟨hp.entityType, fingerprint_ne_nil hf, fingerprint_ne_nil hf',
    _, _, .index hmem hf hf', ?_, ?_⟩
  · rw [fingerprintKey_eq_render, htype]
    rfl
  · rw [fingerprintKey_eq_render, ← hlabel.tenantId, ← hlabel.sessionId,
      ← hlabel.entityType, htype, hp.entityType]
    rfl

theorem repeatAlike :
    RepeatAlike (AlikeRequest vault fingerprinter pairs t s) := by
  rintro _ _ _ _ ⟨p, p', hp, rfl, rfl⟩ ⟨q, q', hq, rfl, rfl⟩
  obtain ⟨a, a', ha, hat, has, hatype, hfa, hfa'⟩ := hp.identities
  obtain ⟨b, b', hb, hbt, hbs, hbtype, hfb, hfb'⟩ := hq.identities
  have htogether := hnames.together _ ha _ hb
  simp only at htogether
  unfold dedupKey Pending.request
  simp only [Prod.mk.injEq]
  constructor
  · rintro ⟨htype, hhmac⟩
    rw [← hhmac] at hfb
    have hsame := htogether.mp (hnames.left.fingerprints _ (mem_fst ha) _
      (mem_fst hb) _ hfa hfb)
    rw [hsame] at hfa'
    exact ⟨hp.entityType.symm.trans (htype.trans hq.entityType),
      Except.ok.inj (hfa'.symm.trans hfb')⟩
  · rintro ⟨htype, hhmac⟩
    rw [← hhmac] at hfb'
    have hsame := htogether.mpr (hnames.right.fingerprints _ (mem_snd ha) _
      (mem_snd hb) _ hfa' hfb')
    rw [hsame] at hfa
    exact ⟨hp.entityType.trans (htype.trans hq.entityType.symm),
      Except.ok.inj (hfa.symm.trans hfb)⟩

/-- A mapping on the two sides: at one index, with one token. -/
def AlikeMapping (m m' : Nat × EntityMapping) : Prop :=
  m.1 = m'.1 ∧ m.2.token = m'.2.token

omit hnames in
theorem mappingsFor_alike {pendings pendings' : List Pending}
    (h : List.Forall₂ (AlikePending vault fingerprinter pairs t s) pendings
      pendings') (tokens : List Text) :
    Same (List.Forall₂ AlikeMapping) (mappingsFor pendings tokens)
      (mappingsFor pendings' tokens) := by
  induction h generalizing tokens with
  | nil => exact .ok .nil
  | @cons p p' pendings pendings' hhead htail ih =>
      cases tokens with
      | nil => exact .ok .nil
      | cons token tokens =>
          unfold mappingsFor mappingFor
          rw [← hhead.entityType]
          cases coerceVaultToken token p.entityType with
          | error e => exact .error e
          | ok coerced =>
              simp only
              have hrest := ih tokens
              generalize mappingsFor pendings tokens = rest at hrest ⊢
              generalize mappingsFor pendings' tokens = rest' at hrest ⊢
              cases hrest with
              | error e => exact .error e
              | ok minted => exact .ok (.cons ⟨hhead.index, rfl⟩ minted)

/-- The mints return the same tokens for the same places. -/
theorem tracks_mint {plan plan' : List Planned}
    (hitems : List.Forall₂ (AlikeItem unicode pairs t s text text')
      plan.zipIdx plan'.zipIdx) (ttlSeconds : Int) :
    Tracks (AlikeWorld (naming hnames)) (List.Forall₂ AlikeMapping)
      (mint unicode vault.hashes fingerprinter t s vault.like text plan
        ttlSeconds)
      (mint unicode vault.hashes fingerprinter t s vault.like text' plan'
        ttlSeconds) := by
  refine (tracks_checked (pendingOf_alike hnames hitems)).bind
    (fun pendings pendings' hpendings => ?_)
  have hlength := hpendings.length_eq
  have hnil : pendings = [] ↔ pendings' = [] := by
    rw [← List.length_eq_zero_iff, hlength, List.length_eq_zero_iff]
  by_cases hempty : pendings = []
  · rw [if_pos hempty, if_pos (hnil.mp hempty)]
    exact tracks_pure .nil
  · rw [if_neg hempty, if_neg (fun h' => hempty (hnil.mpr h'))]
    have hrequests : List.Forall₂
        (AlikeRequest vault fingerprinter pairs t s)
        (pendings.map Pending.request) (pendings'.map Pending.request) := by
      rw [List.forall₂_map_left_iff, List.forall₂_map_right_iff]
      exact hpendings.imp (fun p p' hp => ⟨p, p', hp, rfl, rfl⟩)
    have hcall : Tracks (AlikeWorld (naming hnames)) Eq
        (vault.like.getOrCreateMany t s (pendings.map Pending.request)
          ttlSeconds)
        (vault.like.getOrCreateMany t s (pendings'.map Pending.request)
          ttlSeconds) :=
      tracks_getOrCreateMany (naming_blind hnames t s)
        (fun _ _ h => askAlike hnames h) (repeatAlike hnames) hrequests
        ttlSeconds
    refine hcall.bind ?_
    rintro tokens _ rfl
    rw [← hlength]
    refine tracks_ite (fun _ => ?_) (fun _ => tracks_throw _)
    exact tracks_checked (mappingsFor_alike hpendings tokens)

-- ==================================================== the splice

omit hnames

theorem around_concat (spans : List DetectedEntity) (e : DetectedEntity)
    (cursor stop : Nat) :
    around text cursor stop (spans ++ [e]) =
      around text cursor e.start spans ++ [slice text e.stop stop] := by
  induction spans generalizing cursor with
  | nil => rfl
  | cons e' spans ih =>
      rw [List.cons_append, around, around, ih, List.cons_append]

/-- The spans of plan entries that do not stay in the text. -/
def hiddenItems (items : List (Planned × Nat)) : List DetectedEntity :=
  (items.filter (fun item => decide (item.1.2 ≠ .allow))).map
    (fun item => item.1.1)

theorem token_alike {minted minted' : Dict Nat EntityMapping}
    (h : List.Forall₂ AlikeMapping minted minted') (n : Nat) :
    (minted.get? n).map EntityMapping.token =
      (minted'.get? n).map EntityMapping.token := by
  induction h with
  | nil => rfl
  | @cons m m' minted minted' hhead htail ih =>
      obtain ⟨k, m⟩ := m
      obtain ⟨k', m'⟩ := m'
      obtain ⟨hindex, htoken⟩ := hhead
      simp only at hindex htoken
      subst hindex
      unfold Dict.get?
      by_cases hk : k = n
      · rw [if_pos hk, if_pos hk, Option.map_some, Option.map_some, htoken]
      · rw [if_neg hk, if_neg hk]
        exact ih

/-- A span is replaced by the same text. -/
theorem replacementOf_alike {minted minted' : Dict Nat EntityMapping}
    (hashes : Hashes) (hminted : List.Forall₂ AlikeMapping minted minted')
    {item item' : Planned × Nat}
    (h : AlikeItem unicode pairs t s text text' item item') :
    replacementOf unicode hashes text minted item =
      replacementOf unicode hashes text' minted' item' := by
  have htoken := token_alike hminted item.2
  have hplain := h.plain
  unfold replacementOf replacementFor
  rw [← h.index, ← h.action, ← h.entityType]
  cases haction : item.1.2 with
  | allow => rfl
  | redact => rfl
  | pseudonymize => exact absurd haction hplain
  | tokenize =>
      cases hm : minted.get? item.2 with
      | none =>
          rw [hm] at htoken
          cases hm' : minted'.get? item.2 with
          | none => rfl
          | some m' =>
              rw [hm'] at htoken
              cases htoken
      | some m =>
          rw [hm] at htoken
          cases hm' : minted'.get? item.2 with
          | none =>
              rw [hm'] at htoken
              cases htoken
          | some m' =>
              rw [hm'] at htoken
              exact congrArg (fun token => Except.ok (some token))
                (Option.some.inj htoken)
  | block =>
      cases hm : minted.get? item.2 with
      | none =>
          rw [hm] at htoken
          cases hm' : minted'.get? item.2 with
          | none => rfl
          | some m' =>
              rw [hm'] at htoken
              cases htoken
      | some m =>
          rw [hm] at htoken
          cases hm' : minted'.get? item.2 with
          | none =>
              rw [hm'] at htoken
              cases htoken
          | some m' =>
              rw [hm'] at htoken
              exact congrArg (fun token => Except.ok (some token))
                (Option.some.inj htoken)

theorem hiddenItems_concat (items : List (Planned × Nat))
    (item : Planned × Nat) :
    hiddenItems (items ++ [item]) = hiddenItems items ++
      if item.1.2 = .allow then [] else [item.1.1] := by
  unfold hiddenItems
  rw [List.filter_append, List.map_append]
  by_cases hallow : item.1.2 = .allow
  · rw [if_pos hallow, List.filter_cons_of_neg (by
      rw [decide_eq_true_eq]
      exact fun h => h hallow)]
    rfl
  · rw [if_neg hallow,
      List.filter_cons_of_pos (by exact decide_eq_true hallow)]
    rfl

/-- The loops collect the same pieces, as long as what stands around the
spans still to come is the same. -/
theorem spliceFrom_alike (hashes : Hashes)
    {minted minted' : Dict Nat EntityMapping}
    (hminted : List.Forall₂ AlikeMapping minted minted')
    {order order' : List (Planned × Nat)}
    (h : List.Forall₂ (AlikeItem unicode pairs t s text text') order
      order') :
    ∀ state state' : Spliced, state.pieces = state'.pieces →
      around text 0 state.cursor (hiddenItems order.reverse) =
        around text' 0 state'.cursor (hiddenItems order'.reverse) →
      Same (fun final final' => final.pieces ++ [text.take final.cursor] =
          final'.pieces ++ [text'.take final'.cursor])
        (spliceFrom unicode hashes text minted state order)
        (spliceFrom unicode hashes text' minted' state' order') := by
  induction h with
  | nil =>
      intro state state' hpieces haround
      refine .ok ?_
      have hfirst : text.take state.cursor = text'.take state'.cursor :=
        (List.cons.inj haround).1
      rw [hpieces, hfirst]
  | @cons item item' order order' hhead htail ih =>
      intro state state' hpieces haround
      have hreplaced := replacementOf_alike hashes hminted hhead
      rw [List.reverse_cons, List.reverse_cons, hiddenItems_concat,
        hiddenItems_concat, ← hhead.action] at haround
      unfold spliceFrom
      simp only
      rw [← hreplaced]
      cases hr : replacementOf unicode hashes text minted item with
      | error e => exact .error e
      | ok replaced =>
          have hallow := replacementFor_eq_none_iff hr
          cases replaced with
          | none =>
              rw [if_pos (hallow.mp rfl), if_pos (hallow.mp rfl),
                List.append_nil, List.append_nil] at haround
              exact ih _ _ hpieces haround
          | some replacement =>
              have hhidden : item.1.2 ≠ .allow := fun h' => by
                cases hallow.mpr h'
              rw [if_neg hhidden, if_neg hhidden, around_concat,
                around_concat] at haround
              obtain ⟨hbefore, hafter⟩ :=
                List.append_inj' haround rfl
              refine ih _ _ ?_ hbefore
              simp only [hpieces, (List.cons.inj hafter).1]

-- ==================================================== the transform

theorem hiddenItems_withActions (spans : List DetectedEntity) (n : Nat) :
    hiddenItems ((withActions policy spans).zipIdx n) =
      hiddenSpans policy spans :=
  filter_withActions policy (fun action => decide (action ≠ .allow)) spans n

theorem summarize_alike {plan plan' : List Planned} {n : Nat}
    (h : List.Forall₂ (AlikeItem unicode pairs t s text text')
      (plan.zipIdx n) (plan'.zipIdx n)) :
    summarize plan = summarize plan' := by
  have hplans : plan.map (fun item => (item.1.entityType, item.2)) =
      plan'.map (fun item => (item.1.entityType, item.2)) := by
    induction plan generalizing plan' n with
    | nil =>
        cases plan' with
        | nil => rfl
        | cons item' plan' => cases h
    | cons item plan ih =>
        cases plan' with
        | nil => cases h
        | cons item' plan' =>
            cases h with
            | cons hhead htail =>
                rw [List.map_cons, List.map_cons, ih htail,
                  show item.1.entityType = item'.1.entityType from
                    hhead.entityType,
                  show item.2 = item'.2 from hhead.action]
  have htally : ∀ action, tally plan action = tally plan' action := by
    intro action
    have hcount := congrArg
      (List.countP (fun item : Text × EntityAction => item.2 == action))
      hplans
    rwa [List.countP_map, List.countP_map] at hcount
  have htypes : ∀ (plan : List Planned) (counts : Dict Text Nat),
      countTypes plan counts = (plan.map (fun item =>
        (item.1.entityType, item.2))).foldl (fun counts item =>
          counts.set item.1 ((counts.get? item.1).getD 0 + 1)) counts := by
    intro plan
    induction plan with
    | nil => exact fun _ => rfl
    | cons item plan ih => exact fun counts => ih _
  have hlength := congrArg List.length hplans
  rw [List.length_map, List.length_map] at hlength
  unfold summarize
  rw [hlength, htypes, htypes, hplans, htally, htally, htally, htally]

/-- The transforms disclose the same, and leave servers that are alike. -/
theorem tracks_transform (hnames : Renames vault fingerprinter pairs)
    {entities entities' : List DetectedEntity}
    (hselects : selectEntities text entities policy = .ok selected)
    (hselects' : selectEntities text' entities' policy = .ok selected')
    (hshape : SameOutside policy text text' selected selected')
    (hplain : ∀ e ∈ selected,
      policy.actionFor e.entityType ≠ .pseudonymize)
    (hpairs : ∀ p ∈ (identitiesIn unicode t s policy text selected).zip
      (identitiesIn unicode t s policy text' selected'), p ∈ pairs) :
    Tracks (AlikeWorld (naming hnames))
      (fun out out' => out.text = out'.text ∧ out.summary = out'.summary)
      (transform unicode vault.hashes fingerprinter vault.like t s text
        entities policy)
      (transform unicode vault.hashes fingerprinter vault.like t s text'
        entities' policy) := by
  have hitems := items_alike hshape.types hplain hpairs 0
  have hchain : ∀ {text : Text} {entities selected : List DetectedEntity},
      selectEntities text entities policy = .ok selected →
      spliceOrder (withActions policy selected) =
        (withActions policy selected).zipIdx.reverse := by
    intro text entities selected h
    obtain ⟨-, rfl⟩ := selectEntities_ok_iff.mp h
    exact spliceOrder_eq_reverse (resolveOverlaps_chain _)
  refine (tracks_checked (planFor_alike hselects hselects'
    hshape.types)).bind ?_
  rintro _ _ ⟨rfl, rfl⟩
  refine (tracks_mint hnames hitems _).bind (fun minted minted' hminted => ?_)
  have hloop := spliceFrom_alike vault.hashes hminted
    (List.rel_reverse hitems) ⟨[], [], text.length⟩ ⟨[], [], text'.length⟩
    rfl (by
      rw [List.reverse_reverse, List.reverse_reverse,
        hiddenItems_withActions, hiddenItems_withActions]
      exact hshape.outside)
  rw [hchain hselects, hchain hselects']
  refine (tracks_checked hloop).bind (fun final final' hfinal => ?_)
  refine tracks_pure ⟨?_, summarize_alike hitems⟩
  simp only [hfinal]

end Transform

-- ==================================================== runs

section Runs

variable {vault : RedisTokenVault} {unicode : Unicode}
  {fingerprinter : Fingerprinter} {pairs : List (Identity × Identity)}

/-- One step: the same is disclosed, and the servers stay alike. -/
theorem step_alike (hnames : Renames vault fingerprinter pairs)
    {st st' : SessionState}
    (hworld : AlikeWorld (naming hnames) st.world st'.world)
    {op op' : SessionOp} (h : Indistinct vault fingerprinter pairs op op')
    (hpairs : ∀ p ∈ (op.tokenized unicode).zip (op'.tokenized unicode),
      p ∈ pairs) :
    disclosure vault unicode fingerprinter st op =
        disclosure vault unicode fingerprinter st' op' ∧
      AlikeWorld (naming hnames)
        (sessionStep vault unicode fingerprinter st op).world
        (sessionStep vault unicode fingerprinter st' op').world := by
  cases h with
  | protect t s policy selects selects' shape plain =>
      unfold SessionOp.tokenized at hpairs
      simp only [selects, selects'] at hpairs
      have hrun := tracks_transform hnames selects selects' shape plain
        hpairs _ _ hworld
      unfold disclosure sessionStep
      simp only
      generalize runIn (transform unicode vault.hashes fingerprinter
        vault.like t s _ _ policy) st.world = left at hrun ⊢
      generalize runIn (transform unicode vault.hashes fingerprinter
        vault.like t s _ _ policy) st'.world = right at hrun ⊢
      cases hrun with
      | ok result state =>
          refine ⟨?_, state⟩
          simp only [disclosed, result.1, result.2]
      | error e state => exact ⟨rfl, state⟩
  | wait d => exact ⟨rfl, hworld.elapse d⟩
  | lose counterpart =>
      exact ⟨rfl, hworld.redis.erase
        (.cons ⟨_, _, counterpart, rfl, rfl⟩ .nil), hworld.idsDrawn,
        hworld.noncesDrawn⟩

/-- From servers that are alike on, to the end of the runs. -/
theorem disclosures_alike (hnames : Renames vault fingerprinter pairs)
    {ops ops' : List SessionOp}
    (h : List.Forall₂ (Indistinct vault fingerprinter pairs) ops ops') :
    ∀ {st st' : SessionState},
      AlikeWorld (naming hnames) st.world st'.world →
      List.Forall₂ (fun op op' => ∀ p ∈ (SessionOp.tokenized unicode op).zip
        (SessionOp.tokenized unicode op'), p ∈ pairs) ops ops' →
      disclosures vault unicode fingerprinter st ops =
        disclosures vault unicode fingerprinter st' ops' := by
  induction h with
  | nil => exact fun _ _ => rfl
  | @cons op op' ops ops' hhead htail ih =>
      intro st st' hworld hpairs
      cases hpairs with
      | cons hmem hrest =>
          obtain ⟨hsame, hnext⟩ := step_alike hnames hworld hhead hmem
          unfold disclosures
          rw [hsame, ih hnext hrest]

/-- What two such steps tokenize differs in values alone. -/
theorem Indistinct.labels (unicode : Unicode) {op op' : SessionOp}
    (h : Indistinct vault fingerprinter pairs op op') :
    List.Forall₂ SameLabel (op.tokenized unicode)
      (op'.tokenized unicode) := by
  cases h with
  | @protect t s policy text text' entities entities' selected selected'
      selects selects' shape plain =>
      have htypes := shape.types
      unfold SessionOp.tokenized
      simp only [selects, selects']
      unfold identitiesIn tokenizedSpans
      clear selects selects' shape plain
      induction selected generalizing selected' with
      | nil =>
          cases selected' with
          | nil => exact .nil
          | cons e' selected' => cases htypes
      | cons e selected ih =>
          cases selected' with
          | nil => cases htypes
          | cons e' selected' =>
              obtain ⟨htype, hrest⟩ := List.cons.inj htypes
              rw [List.filter_cons, List.filter_cons, ← htype]
              by_cases htokenize : decide
                  (policy.actionFor e.entityType = .tokenize) = true
              · rw [if_pos htokenize, if_pos htokenize]
                exact .cons ⟨rfl, rfl, htype⟩ (ih hrest)
              · rw [if_neg htokenize, if_neg htokenize]
                exact ih hrest
  | wait d => exact .nil
  | lose counterpart => exact .nil

/-- The pairs of a step are among the pairs of its run. -/
theorem zip_of_flatMap {tokenized : SessionOp → List Identity}
    {ops ops' : List SessionOp}
    (h : List.Forall₂ (fun op op' =>
      (tokenized op).length = (tokenized op').length) ops ops') :
    (∀ p ∈ (ops.flatMap tokenized).zip (ops'.flatMap tokenized),
      p ∈ pairs) →
    List.Forall₂ (fun op op' =>
      ∀ p ∈ (tokenized op).zip (tokenized op'), p ∈ pairs) ops ops' := by
  induction h with
  | nil => exact fun _ => .nil
  | cons hhead htail ih =>
      intro hall
      rw [List.flatMap_cons, List.flatMap_cons, List.zip_append hhead]
        at hall
      exact .cons (fun p hp => hall p (List.mem_append_left _ hp))
        (ih fun p hp => hall p (List.mem_append_right _ hp))

end Runs

/-- A protected text tells nothing of the values it hides. Take two runs
whose texts differ only in their hidden spans: the same types in the same
order, and the same text around them. If the same of their tokenized
values repeat, and neither run's identities collide, everything that
leaves the transforms is the same: every protected text, every summary and
every error, over any number of sessions and any time that passes between
them. So for the same draws nobody who sees these can tell which values
were there. -/
theorem protected_text_hides (vault : RedisTokenVault) (unicode : Unicode)
    (fingerprinter : Fingerprinter) (ops ops' : List SessionOp)
    (hrepeat : RepeatTogether (ops.flatMap (SessionOp.tokenized unicode))
      (ops'.flatMap (SessionOp.tokenized unicode)))
    (hcollision : Collisionless vault fingerprinter
      (ops.flatMap (SessionOp.tokenized unicode)))
    (hcollision' : Collisionless vault fingerprinter
      (ops'.flatMap (SessionOp.tokenized unicode)))
    (hfits : ∀ identity ∈ ops.flatMap (SessionOp.tokenized unicode) ++
      ops'.flatMap (SessionOp.tokenized unicode), identity.Fits)
    (hops : List.Forall₂ (Indistinct vault fingerprinter
      ((ops.flatMap (SessionOp.tokenized unicode)).zip
        (ops'.flatMap (SessionOp.tokenized unicode)))) ops ops') :
    disclosures vault unicode fingerprinter SessionState.start ops =
      disclosures vault unicode fingerprinter SessionState.start ops' := by
  have hsteps := hops.imp (fun _ _ => Indistinct.labels unicode)
  have hlabels : List.Forall₂ SameLabel
      (ops.flatMap (SessionOp.tokenized unicode))
      (ops'.flatMap (SessionOp.tokenized unicode)) :=
    List.rel_flatMap hops
      (fun _ _ => Indistinct.labels unicode)
  have hlength := hlabels.length_eq
  have hnames : Renames vault fingerprinter
      ((ops.flatMap (SessionOp.tokenized unicode)).zip
        (ops'.flatMap (SessionOp.tokenized unicode))) := by
    refine ⟨fun p hp => (List.forall₂_iff_zip.mp hlabels).2 hp, hrepeat,
      ?_, ?_, fun p hp => ?_⟩
    · rw [List.map_fst_zip (by omega)]
      exact hcollision
    · rw [List.map_snd_zip (by omega)]
      exact hcollision'
    · obtain ⟨hleft, hright⟩ := List.of_mem_zip hp
      exact ⟨hfits _ (List.mem_append_left _ hleft),
        hfits _ (List.mem_append_right _ hright)⟩
  refine disclosures_alike hnames hops ?_
    (zip_of_flatMap (hsteps.imp fun _ _ h => h.length_eq) fun _ hp => hp)
  exact ⟨⟨rfl, fun _ _ _ => .absent⟩, rfl, rfl⟩

-- ==================================================== on fixed inputs

/-- The digests of two names. -/
def twoNames : Hashes :=
  Hashes.ofTables
    [((List.replicate 32 7,
        [0, 0, 0, 16, 0, 0, 0, 0, 0, 0, 0, 0, 0, 0, 0, 0, 0, 0, 0, 2,
          0, 0, 0, 16, 0, 0, 0, 0, 0, 0, 0, 0, 0, 0, 0, 0, 0, 0, 0, 3,
          0, 0, 0, 6, 80, 69, 82, 83, 79, 78, 0, 0, 0, 3, 65, 110, 110]),
      [143, 161, 10, 166, 43, 38, 180, 232, 153, 5, 253, 7, 38, 198, 213,
        205, 69, 200, 205, 50, 239, 166, 80, 38, 204, 11, 80, 85, 159,
        184, 113, 3]),
    ((List.replicate 32 7,
        [0, 0, 0, 16, 0, 0, 0, 0, 0, 0, 0, 0, 0, 0, 0, 0, 0, 0, 0, 2,
          0, 0, 0, 16, 0, 0, 0, 0, 0, 0, 0, 0, 0, 0, 0, 0, 0, 0, 0, 3,
          0, 0, 0, 6, 80, 69, 82, 83, 79, 78, 0, 0, 0, 7, 82, 111, 98,
          101, 114, 116, 97]),
      [196, 252, 165, 247, 67, 255, 47, 160, 112, 252, 146, 218, 237, 112,
        204, 190, 208, 219, 11, 89, 50, 109, 242, 100, 129, 54, 186, 30,
        124, 102, 15, 122])]
    [(encodeUtf8
        "8fa10aa62b26b4e89905fd0726c6d5cd45c8cd32efa65026cc0b50559fb87103".toList,
      [157, 114, 224, 130, 247, 129, 103, 234, 188, 99, 182, 17, 42, 161,
        29, 220, 166, 104, 227, 127, 111, 23, 2, 45, 5, 174, 91, 173, 58,
        137, 184, 45]),
    (encodeUtf8
        "c4fca5f743ff2fa070fc92daed70ccbed0db0b59326df2648136ba1e7c660f7a".toList,
      [155, 196, 238, 47, 133, 231, 225, 144, 69, 137, 156, 12, 1, 33,
        168, 0, 186, 31, 100, 2, 152, 229, 2, 155, 90, 0, 130, 27, 2, 115,
        221, 157])]

/-- A name of some length after `Dear`. -/
def nameSpan (length : Nat) (h : 0 < length) : DetectedEntity where
  entityType := "PERSON".toList
  start := 5
  stop := 5 + length
  score := 17 / 20
  span_forward := by omega
  score_bounded := Bounds.seventeenTwentieths

/-- A letter to a name, and another a second later. -/
def letters (name : Text) (h : 0 < name.length) : List SessionOp :=
  let letter := SessionOp.protect ⟨2⟩ ⟨3⟩ ("Dear ".toList ++ name ++ ['!'])
    [nameSpan name.length h] tokensPolicy
  [letter, .wait 1000, letter]

/-- Letters to Ann and to Roberta read the same. -/
theorem protected_text_hides_name :
    disclosures (Reference.vault twoNames) Unicode.ascii sampleFingerprinter
        SessionState.start (letters "Ann".toList (by decide)) =
      disclosures (Reference.vault twoNames) Unicode.ascii
        sampleFingerprinter SessionState.start
        (letters "Roberta".toList (by decide)) ∧
    (disclosures (Reference.vault twoNames) Unicode.ascii
        sampleFingerprinter SessionState.start
        (letters "Ann".toList (by decide))).map
          (fun outcome => outcome.toOption.map Prod.fst) =
      List.replicate 2 (some
        "Dear ⟦SGW:PERSON:00000000000000000000000000⟧!".toList) := by
  have hann : ∀ identity ∈ (letters "Ann".toList (by decide)).flatMap
      (SessionOp.tokenized Unicode.ascii),
        identity = ⟨⟨2⟩, ⟨3⟩, "PERSON".toList, "Ann".toList⟩ := by
    decide +kernel
  have hroberta : ∀ identity ∈ (letters "Roberta".toList
      (by decide)).flatMap (SessionOp.tokenized Unicode.ascii),
        identity = ⟨⟨2⟩, ⟨3⟩, "PERSON".toList, "Roberta".toList⟩ := by
    decide +kernel
  have halone : ∀ {known : List Identity} {identity : Identity},
      (∀ a ∈ known, a = identity) →
        Collisionless (Reference.vault twoNames) sampleFingerprinter
          known := by
    intro known identity honly
    refine ⟨fun a ha b hb _ _ _ => (honly a ha).trans (honly b hb).symm,
      fun a ha b hb hmac hmac' h h' _ => ?_⟩
    rw [honly a ha] at h
    rw [honly b hb] at h'
    exact Except.ok.inj (h.symm.trans h')
  refine ⟨protected_text_hides _ _ _ _ _ ?_ (halone hann)
    (halone hroberta) ?_ ?_, by decide +kernel⟩
  · intro p hp q hq
    rw [hann _ (List.of_mem_zip hp).1, hann _ (List.of_mem_zip hq).1,
      hroberta _ (List.of_mem_zip hp).2, hroberta _ (List.of_mem_zip hq).2]
    exact ⟨fun _ => rfl, fun _ => rfl⟩
  · intro identity hmem
    unfold Identity.Fits
    rcases List.mem_append.mp hmem with h | h
    · rw [hann _ h]
      decide +kernel
    · rw [hroberta _ h]
      decide +kernel
  · have hletter : ∀ pairs, Indistinct (Reference.vault twoNames)
        sampleFingerprinter pairs
        (.protect ⟨2⟩ ⟨3⟩ "Dear Ann!".toList [nameSpan 3 (by decide)]
          tokensPolicy)
        (.protect ⟨2⟩ ⟨3⟩ "Dear Roberta!".toList [nameSpan 7 (by decide)]
          tokensPolicy) := by
      intro pairs
      exact .protect ⟨2⟩ ⟨3⟩ tokensPolicy
        (show selectEntities _ _ _ = .ok [nameSpan 3 (by decide)] by
          decide +kernel)
        (show selectEntities _ _ _ = .ok [nameSpan 7 (by decide)] by
          decide +kernel)
        ⟨rfl, by decide +kernel⟩ (by decide +kernel)
    exact .cons (hletter _) (.cons (.wait 1000) (.cons (hletter _) .nil))

end PrivacyGateway.Tokenization
