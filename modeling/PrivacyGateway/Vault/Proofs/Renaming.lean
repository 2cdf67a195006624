/-
Two servers that differ in names and in what is sealed.

A `Correspondence` says which keys of the one server stand for which keys
of the other and which envelopes may stand for each other. `AlikeRedis`
relates the servers: what one holds under a key, the other holds under the
key it corresponds to, with the same deadline. Texts are the same, sets
list corresponding names. Every command on corresponding keys goes the
same way on both (`tracks_get` and its kin), and so does the batch script
on entries that correspond (`tracks_batchWrite`), although it never looks
inside an envelope.
-/
import Mathlib.Data.List.Dedup
import Mathlib.Data.List.Forall2
import PrivacyGateway.Lib.Simulation
import PrivacyGateway.Vault.System

namespace PrivacyGateway.Vault.Renaming

open Effect

-- ==================================================== names

section Lists

variable {α β : Type} {rel : α → β → Prop} {l : List α} {l' : List β}

/-- Names that correspond repeat at the same places. -/
theorem forall₂_dedup [DecidableEq α] [DecidableEq β]
    (hrel : Relator.BiUnique rel) (h : List.Forall₂ rel l l') :
    List.Forall₂ rel l.dedup l'.dedup := by
  induction h with
  | nil => exact .nil
  | @cons a a' l l' hhead htail ih =>
      have hmem := List.rel_mem hrel hhead htail
      by_cases hin : a ∈ l
      · rw [List.dedup_cons_of_mem hin,
          List.dedup_cons_of_mem (hmem.mp hin)]
        exact ih
      · rw [List.dedup_cons_of_notMem hin,
          List.dedup_cons_of_notMem (fun h' => hin (hmem.mpr h'))]
        exact .cons hhead ih

theorem countP_eq {p : α → Bool} {q : β → Bool}
    (h : List.Forall₂ rel l l') (hpq : ∀ a a', rel a a' → p a = q a') :
    l.countP p = l'.countP q := by
  induction h with
  | nil => rfl
  | cons hhead htail ih =>
      rw [List.countP_cons, List.countP_cons, ih, hpq _ _ hhead]

end Lists

-- ==================================================== servers

/-- What may stand for what. Envelopes are found under the keys of records,
and texts under other keys. -/
structure Correspondence where
  keys : Text → Text → Prop
  secrets : Bytes → Bytes → Prop
  records : Text → Prop
  oneToOne : Relator.BiUnique keys

variable {C : Correspondence}

/-- What the two servers hold under corresponding keys. -/
inductive AlikeEntry (C : Correspondence) (key : Text) :
    Option (Entry RedisValue) → Option (Entry RedisValue) → Prop
  | absent : AlikeEntry C key none none
  | text (value : Text) (deadline : Option Nat) (place : ¬ C.records key) :
      AlikeEntry C key (some ⟨.text value, deadline⟩)
        (some ⟨.text value, deadline⟩)
  | blob {raw raw' : Bytes} (deadline : Option Nat)
      (place : C.records key) (secret : C.secrets raw raw') :
      AlikeEntry C key (some ⟨.blob raw, deadline⟩)
        (some ⟨.blob raw', deadline⟩)
  | set {members members' : List Text} (deadline : Option Nat)
      (names : List.Forall₂ C.keys members members') :
      AlikeEntry C key (some ⟨.set members, deadline⟩)
        (some ⟨.set members', deadline⟩)

structure AlikeRedis (C : Correspondence) (r r' : Redis) : Prop where
  now : r.now = r'.now
  keys : ∀ key key', C.keys key key' →
    AlikeEntry C key (r.keys key) (r'.keys key')

variable {key key' member member' : Text} {r r' : Redis}

theorem AlikeEntry.deadline_eq {e e' : Entry RedisValue}
    (h : AlikeEntry C key (some e) (some e')) :
    e.deadline = e'.deadline := by
  cases h with
  | text value deadline place => rfl
  | blob deadline place secret => rfl
  | set deadline names => rfl

/-- With another deadline, the same on both sides. -/
theorem AlikeEntry.withDeadline {e e' : Entry RedisValue}
    (h : AlikeEntry C key (some e) (some e')) (d : Option Nat) :
    AlikeEntry C key (some ⟨e.value, d⟩) (some ⟨e'.value, d⟩) := by
  cases h with
  | text value deadline place => exact .text value d place
  | blob deadline place secret => exact .blob d place secret
  | set deadline names => exact .set d names

theorem AlikeEntry.isSome_eq {e e' : Option (Entry RedisValue)}
    (h : AlikeEntry C key e e') : e.isSome = e'.isSome := by
  cases h with
  | absent => rfl
  | text value deadline place => rfl
  | blob deadline place secret => rfl
  | set deadline names => rfl

theorem AlikeRedis.peek (h : AlikeRedis C r r') (hkey : C.keys key key') :
    AlikeEntry C key (r.peek key) (r'.peek key') := by
  have hentry := h.keys key key' hkey
  unfold Redis.peek Keyspace.peek
  cases he : r.keys key with
  | none =>
      rw [he] at hentry
      cases he' : r'.keys key' with
      | none => exact .absent
      | some e' =>
          rw [he'] at hentry
          cases hentry
  | some e =>
      rw [he] at hentry
      cases he' : r'.keys key' with
      | none =>
          rw [he'] at hentry
          cases hentry
      | some e' =>
          rw [he'] at hentry
          simp only
          have hlive : e.LiveAt r.now ↔ e'.LiveAt r'.now := by
            unfold Entry.LiveAt
            rw [hentry.deadline_eq, h.now]
          by_cases hnow : e.LiveAt r.now
          · rw [if_pos hnow, if_pos (hlive.mp hnow)]
            exact hentry
          · rw [if_neg hnow, if_neg (fun hl => hnow (hlive.mpr hl))]
            exact .absent

theorem AlikeRedis.deadline (h : AlikeRedis C r r') (seconds : Nat) :
    r.deadline seconds = r'.deadline seconds := by
  unfold Redis.deadline
  rw [h.now]

theorem AlikeRedis.write (h : AlikeRedis C r r') (hkey : C.keys key key')
    {e e' : Entry RedisValue}
    (he : AlikeEntry C key (some e) (some e')) :
    AlikeRedis C (r.putKeys (r.keys.write key e))
      (r'.putKeys (r'.keys.write key' e')) := by
  refine ⟨h.now, fun k k' hk => ?_⟩
  have hsame := Relator.rel_eq C.oneToOne hk hkey
  show AlikeEntry C k (if k = key then some e else r.keys k)
    (if k' = key' then some e' else r'.keys k')
  by_cases hwritten : k = key
  · rw [if_pos hwritten, if_pos (hsame.mp hwritten), hwritten]
    exact he
  · rw [if_neg hwritten, if_neg (fun h' => hwritten (hsame.mpr h'))]
    exact h.keys k k' hk

theorem AlikeRedis.erase (h : AlikeRedis C r r') {keys keys' : List Text}
    (hkeys : List.Forall₂ C.keys keys keys') :
    AlikeRedis C (r.putKeys (r.keys.eraseAll keys))
      (r'.putKeys (r'.keys.eraseAll keys')) := by
  refine ⟨h.now, fun k k' hk => ?_⟩
  have hmem := List.rel_mem C.oneToOne hk hkeys
  unfold Redis.putKeys Keyspace.eraseAll
  simp only
  by_cases hin : k ∈ keys
  · rw [if_pos hin, if_pos (hmem.mp hin)]
    exact .absent
  · rw [if_neg hin, if_neg (fun h' => hin (hmem.mpr h'))]
    exact h.keys k k' hk

-- ==================================================== commands

/-- Reading an index entry: no envelope is under its key. -/
theorem tracks_get (hkey : C.keys key key') (hplace : ¬ C.records key) :
    Tracks (AlikeRedis C) Eq (Redis.get key) (Redis.get key') := by
  refine tracks_act (fun r r' h => ?_)
  have hpeek := h.peek hkey
  unfold Redis.stringAt
  generalize r.peek key = e at hpeek ⊢
  generalize r'.peek key' = e' at hpeek ⊢
  cases hpeek with
  | absent => exact .ok rfl h
  | text value deadline place => exact .ok rfl h
  | blob deadline place secret => exact absurd place hplace
  | set deadline names => exact .error _ h

theorem tracks_keyExists (hkey : C.keys key key') :
    Tracks (AlikeRedis C) Eq (Redis.keyExists key)
      (Redis.keyExists key') :=
  tracks_act (fun _ _ h => .ok (h.peek hkey).isSome_eq h)

theorem tracks_setEx (hkey : C.keys key key') {value value' : RedisValue}
    (hvalue : ∀ d, AlikeEntry C key (some ⟨value, d⟩) (some ⟨value', d⟩))
    (seconds : Nat) :
    Tracks (AlikeRedis C) Eq (Redis.setEx key value seconds)
      (Redis.setEx key' value' seconds) := by
  refine tracks_act (fun r r' h => .ok rfl (h.write hkey ?_))
  rw [← h.deadline]
  exact hvalue _

theorem tracks_expire (hkey : C.keys key key') (seconds : Nat) :
    Tracks (AlikeRedis C) Eq (Redis.expire key seconds)
      (Redis.expire key' seconds) := by
  refine tracks_act (fun r r' h => .ok rfl ?_)
  have hpeek := h.peek hkey
  rw [← h.deadline]
  unfold Redis.peek at hpeek
  unfold Keyspace.extend
  generalize hx : Keyspace.peek r.keys r.now key = e at hpeek ⊢
  generalize hx' : Keyspace.peek r'.keys r'.now key' = e' at hpeek ⊢
  cases e with
  | none =>
      cases hpeek
      exact h
  | some e =>
      cases e' with
      | none => cases hpeek
      | some e' => exact h.write hkey (hpeek.withDeadline _)

theorem tracks_sadd (hkey : C.keys key key')
    (hmember : C.keys member member') :
    Tracks (AlikeRedis C) Eq (Redis.sadd key member)
      (Redis.sadd key' member') := by
  refine tracks_act (fun r r' h => ?_)
  have hpeek := h.peek hkey
  unfold Redis.addMember
  rw [show Keyspace.peek r.keys r.now key = r.peek key from rfl,
    show Keyspace.peek r'.keys r'.now key' = r'.peek key' from rfl]
  generalize r.peek key = e at hpeek ⊢
  generalize r'.peek key' = e' at hpeek ⊢
  cases hpeek with
  | absent => exact .ok rfl (h.write hkey (.set _ (.cons hmember .nil)))
  | text value deadline place => exact .error _ h
  | blob deadline place secret => exact .error _ h
  | @set members members' deadline names =>
      refine .ok rfl (h.write hkey (.set _ ?_))
      have hmem := List.rel_mem C.oneToOne hmember names
      unfold Redis.insertMember
      by_cases hin : member ∈ members
      · rw [if_pos hin, if_pos (hmem.mp hin)]
        exact names
      · rw [if_neg hin, if_neg (fun h' => hin (hmem.mpr h'))]
        exact List.rel_append names (.cons hmember .nil)

theorem tracks_smembers (hkey : C.keys key key') :
    Tracks (AlikeRedis C) (List.Forall₂ C.keys) (Redis.smembers key)
      (Redis.smembers key') := by
  refine tracks_act (fun r r' h => ?_)
  have hpeek := h.peek hkey
  generalize r.peek key = e at hpeek ⊢
  generalize r'.peek key' = e' at hpeek ⊢
  cases hpeek with
  | absent => exact .ok .nil h
  | text value deadline place => exact .error _ h
  | blob deadline place secret => exact .error _ h
  | set deadline names => exact .ok names h

theorem tracks_del {keys keys' : List Text}
    (hkeys : List.Forall₂ C.keys keys keys') :
    Tracks (AlikeRedis C) Eq (Redis.del keys) (Redis.del keys') :=
  tracks_act (fun _ _ h => .ok
    (countP_eq (forall₂_dedup C.oneToOne hkeys)
      (fun _ _ hkey => (h.peek hkey).isSome_eq))
    (h.erase hkeys))

theorem tracks_delAny {keys keys' : List Text}
    (hkeys : List.Forall₂ C.keys keys keys') :
    Tracks (AlikeRedis C) Eq (Redis.delAny keys) (Redis.delAny keys') := by
  cases hkeys with
  | nil => exact tracks_pure rfl
  | cons head tail => exact tracks_del (.cons head tail)

/-- What is read for a record: nothing, or envelopes that may stand for
each other. -/
inductive AlikeRead (C : Correspondence) :
    Option Bytes → Option Bytes → Prop
  | absent : AlikeRead C none none
  | blob {raw raw' : Bytes} (secret : C.secrets raw raw') :
      AlikeRead C (some raw) (some raw')

/-- Reading records: no text is under their keys. -/
theorem tracks_mget {keys keys' : List Text}
    (hkeys : List.Forall₂ C.keys keys keys')
    (hplace : ∀ key ∈ keys, C.records key) :
    Tracks (AlikeRedis C) (List.Forall₂ (AlikeRead C)) (Redis.mget keys)
      (Redis.mget keys') := by
  refine tracks_act (fun r r' h => .ok ?_ h)
  induction hkeys with
  | nil => exact .nil
  | cons hkey htail ih =>
      obtain ⟨hhead, hplace⟩ := List.forall_mem_cons.mp hplace
      refine .cons ?_ (ih hplace)
      have hpeek := h.peek hkey
      unfold Redis.stringAt
      generalize r.peek _ = e at hpeek ⊢
      generalize r'.peek _ = e' at hpeek ⊢
      cases hpeek with
      | absent => exact .absent
      | text value deadline place => exact absurd hhead place
      | blob deadline place secret => exact .blob secret
      | set deadline names => exact .absent

-- ==================================================== the script

/-- The arguments of one entry on the two sides. -/
structure AlikeArguments (C : Correspondence)
    (entry entry' : Redis.ScriptEntry) : Prop where
  fingerprintKey : C.keys entry.fingerprintKey entry'.fingerprintKey
  candidateKey : C.keys entry.candidateKey entry'.candidateKey
  candidateId : entry.candidateId = entry'.candidateId
  envelope : C.secrets entry.envelope entry'.envelope
  index : ¬ C.records entry.fingerprintKey
  record : C.records entry.candidateKey

variable {metaKey recordPrefix : Text} (hmeta : C.keys metaKey metaKey)
  (hrecords : ∀ id, C.keys (recordPrefix ++ id) (recordPrefix ++ id))

include hmeta

theorem tracks_createEntry (ttl : Nat) {entry entry' : Redis.ScriptEntry}
    (h : AlikeArguments C entry entry') :
    Tracks (AlikeRedis C) Eq (Redis.createEntry metaKey ttl entry)
      (Redis.createEntry metaKey ttl entry') := by
  unfold Redis.createEntry
  rw [h.candidateId]
  refine (tracks_setEx h.candidateKey (fun d => .blob d h.record h.envelope)
    ttl).bind (fun _ _ _ => ?_)
  refine (tracks_setEx h.fingerprintKey (fun d => .text _ d h.index)
    ttl).bind (fun _ _ _ => ?_)
  refine (tracks_sadd hmeta h.candidateKey).bind (fun _ _ _ => ?_)
  exact (tracks_sadd hmeta h.fingerprintKey).bind
    (fun _ _ _ => tracks_pure rfl)

include hrecords

theorem tracks_writeEntry (ttl : Nat) {entry entry' : Redis.ScriptEntry}
    (h : AlikeArguments C entry entry') :
    Tracks (AlikeRedis C) Eq
      (Redis.writeEntry metaKey recordPrefix ttl entry)
      (Redis.writeEntry metaKey recordPrefix ttl entry') := by
  have hcreate := tracks_createEntry hmeta ttl h
  unfold Redis.writeEntry
  refine (tracks_get h.fingerprintKey h.index).bind ?_
  rintro found _ rfl
  cases found.bind decodeUtf8 with
  | none => exact hcreate
  | some existingId =>
      refine (tracks_keyExists (hrecords existingId)).bind ?_
      rintro present _ rfl
      refine tracks_ite (fun _ => ?_) (fun _ => hcreate)
      refine (tracks_expire h.fingerprintKey _).bind (fun _ _ _ => ?_)
      exact (tracks_expire (hrecords existingId) _).bind
        (fun _ _ _ => tracks_pure rfl)

theorem tracks_batchWrite (ttl : Nat)
    {entries entries' : List Redis.ScriptEntry}
    (h : List.Forall₂ (AlikeArguments C) entries entries') :
    Tracks (AlikeRedis C) Eq
      (Redis.batchWrite metaKey recordPrefix ttl entries)
      (Redis.batchWrite metaKey recordPrefix ttl entries') := by
  have hentries : Tracks (AlikeRedis C) Eq
      (Redis.writeEntries metaKey recordPrefix ttl entries)
      (Redis.writeEntries metaKey recordPrefix ttl entries') := by
    induction h with
    | nil => exact tracks_pure rfl
    | cons head tail ih =>
        refine (tracks_writeEntry hmeta hrecords ttl head).bind ?_
        rintro reply _ rfl
        refine ih.bind ?_
        rintro replies _ rfl
        exact tracks_pure rfl
  refine hentries.bind ?_
  rintro result _ rfl
  exact (tracks_expire hmeta _).bind (fun _ _ _ => tracks_pure rfl)

omit hmeta hrecords

-- ==================================================== calls

/-- Two worlds: servers that are alike, and the same draws made. -/
structure AlikeWorld (C : Correspondence) (w w' : World) : Prop where
  redis : AlikeRedis C w.redis w'.redis
  idsDrawn : w.idsDrawn = w'.idsDrawn
  noncesDrawn : w.noncesDrawn = w'.noncesDrawn

theorem AlikeWorld.elapse {w w' : World} (h : AlikeWorld C w w')
    (milliseconds : Nat) :
    AlikeWorld C (w.elapse milliseconds) (w'.elapse milliseconds) where
  redis := ⟨congrArg (· + milliseconds) h.redis.now, h.redis.keys⟩
  idsDrawn := h.idsDrawn
  noncesDrawn := h.noncesDrawn

theorem tracks_storeCall {α β : Type} {Q : α → β → Prop}
    (operation : String) {x : Eff Redis RedisError α}
    {y : Eff Redis RedisError β} (h : Tracks (AlikeRedis C) Q x y) :
    Tracks (AlikeWorld C) Q (storeCall operation x)
      (storeCall operation y) := by
  refine tracks_act (fun w w' hw => ?_)
  have hrun := h w.redis w'.redis hw.redis
  generalize runIn x w.redis = left at hrun ⊢
  generalize runIn y w'.redis = right at hrun ⊢
  cases hrun with
  | ok result state =>
      exact .ok result ⟨state, hw.idsDrawn, hw.noncesDrawn⟩
  | error e state => exact .error _ ⟨state, hw.idsDrawn, hw.noncesDrawn⟩

variable (vault : RedisTokenVault)

theorem tracks_newTokenId :
    Tracks (AlikeWorld C) Eq vault.newTokenId vault.newTokenId := by
  refine tracks_act (fun w w' hw => ?_)
  rw [hw.idsDrawn]
  exact .ok rfl ⟨hw.redis, rfl, hw.noncesDrawn⟩

theorem tracks_newNonce :
    Tracks (AlikeWorld C)
      (fun nonce nonce' => nonce = nonce' ∧ nonce.length = nonceBytes)
      vault.newNonce vault.newNonce := by
  refine tracks_act (fun w w' hw => ?_)
  rw [hw.noncesDrawn]
  exact .ok ⟨rfl, vault.secrets.urandom_length _⟩
    ⟨hw.redis, hw.idsDrawn, rfl⟩

end PrivacyGateway.Vault.Renaming
