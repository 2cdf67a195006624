/-
No stream but a sealed one opens.

`SealCall` is one use of the cipher: a document's body, or its filename.
`SealCall.Encrypts` says which chunks it encrypts, and under what
associated data; `encrypts_of_sealStream` ties that to what `sealStream`
yields. An adversary presents any stream. What is asked of the cipher is
`Unforged`: of the frames that can be cut out of that stream, only those
open that one of the calls encrypted.

Each frame that opens then names its call through its key, and its place
through its associated data, and the last frame names how many there are.
So a stream that opens to the end opens to the plaintext of one call
(`openStream_unspliced`).
-/
import PrivacyGateway.Documents.Proofs.Streams

namespace PrivacyGateway.Documents

open Effect

-- ==================================================== associated data

theorem lengthPrefixed_injective {fields others : List Bytes}
    {bytes : Bytes} (h : lengthPrefixed fields = .ok bytes)
    (ho : lengthPrefixed others = .ok bytes) : fields = others := by
  unfold lengthPrefixed at h ho
  cases hfields : Frame.frame 2 fields with
  | none =>
      rw [hfields] at h
      cases h
  | some framed =>
      cases hothers : Frame.frame 2 others with
      | none =>
          rw [hothers] at ho
          cases ho
      | some framed' =>
          rw [hfields] at h
          rw [hothers] at ho
          cases h
          cases ho
          exact Frame.frame_injective (by omega) _ _ _ hfields hothers

/-- Associated data names the identity, the purpose, the place and whether
it is the last. -/
theorem DocumentIdentity.aad_injective {identity other : DocumentIdentity}
    {purpose purpose' : Text} {index index' : Nat} {final final' : Bool}
    {bytes : Bytes} (h : identity.aad purpose index final = .ok bytes)
    (ho : other.aad purpose' index' final' = .ok bytes) :
    identity = other ∧ purpose = purpose' ∧ index = index' ∧
      final = final' := by
  have hfields := lengthPrefixed_injective h ho
  simp only [aadFields, List.cons.injEq, true_and, and_true] at hfields
  obtain ⟨htenant, huser, hdocument, htype, hschema, hpurpose, hindex,
    hfinal⟩ := hfields
  have hindex := decimal_injective (encodeUtf8_injective hindex)
  refine ⟨?_, encodeUtf8_injective hpurpose, Int.ofNat.inj hindex, ?_⟩
  · cases identity
    cases other
    simp only [DocumentIdentity.mk.injEq]
    exact ⟨UUID.str_injective (encodeUtf8_injective htenant),
      UUID.str_injective (encodeUtf8_injective huser),
      UUID.str_injective (encodeUtf8_injective hdocument),
      encodeUtf8_injective htype,
      decimal_injective (encodeUtf8_injective hschema)⟩
  · have hmark := encodeUtf8_injective hfinal
    cases final <;> cases final' <;> first | rfl | cases hmark

-- ==================================================== what was sealed

/-- One use of the cipher: a document's body, or its filename. -/
inductive SealCall
  | body (cipher : DocumentCipher) (identity : DocumentIdentity)
      (draws : Draws) (plaintext : List Bytes)
  | filename (cipher : DocumentCipher) (identity : DocumentIdentity)
      (draws : Draws) (plaintext : Bytes)

/-- What the cipher is called with for one chunk. -/
structure Encryption where
  key : Bytes
  nonce : Bytes
  plaintext : Bytes
  aad : Bytes
deriving DecidableEq

namespace SealCall

def cipher : SealCall → DocumentCipher
  | .body cipher _ _ _ => cipher
  | .filename cipher _ _ _ => cipher

def identity : SealCall → DocumentIdentity
  | .body _ identity _ _ => identity
  | .filename _ identity _ _ => identity

def draws : SealCall → Draws
  | .body _ _ draws _ => draws
  | .filename _ _ draws _ => draws

def purpose : SealCall → Text
  | .body _ _ _ _ => purposeBody
  | .filename _ _ _ _ => purposeFilename

def chunks : SealCall → List Bytes
  | .body cipher _ _ plaintext =>
      DocumentCipher.bodyChunks plaintext cipher.chunkBytes
  | .filename _ _ _ plaintext => [plaintext]

/-- The call encrypts this: one of its chunks, under its own key, with the
place of the chunk in the associated data. -/
def Encrypts (call : SealCall) (e : Encryption) : Prop :=
  ∃ index, call.chunks[index]? = some e.plaintext ∧
    call.cipher.derive call.cipher.activeKeyId call.draws.salt
      call.identity = .ok e.key ∧
    call.identity.aad call.purpose index
      (decide (index + 1 = call.chunks.length)) = .ok e.aad ∧
    e.nonce = call.draws.nonce index

end SealCall

/-- The frame an encryption is written as. -/
def DocumentCipher.frameOf (cipher : DocumentCipher) (e : Encryption) :
    Bytes :=
  cipher.sealChunk e.key e.nonce e.plaintext e.aad

namespace DocumentCipher

variable {cipher : DocumentCipher} {identity : DocumentIdentity}
  {draws : Draws} {dataKey : Bytes}

/-- The frames of sealed chunks, by their places. -/
theorem SealedAs.frame {start : Nat} {chunks frames : List Bytes}
    (h : SealedAs cipher identity draws dataKey start chunks frames) :
    ∀ (index : Nat) {frame : Bytes}, frames[index]? = some frame →
      ∃ chunk aad, chunks[index]? = some chunk ∧
        identity.aad purposeBody (start + index)
          (decide (index + 1 = chunks.length)) = .ok aad ∧
        frame = cipher.sealChunk dataKey (draws.nonce (start + index)) chunk
          aad := by
  induction h with
  | final start chunk aad haad =>
      intro index frame hframe
      cases index with
      | zero =>
          cases hframe
          exact ⟨chunk, aad, rfl, haad, rfl⟩
      | succ index => cases hframe
  | next start chunk aad chunks frames haad rest ih =>
      intro index frame hframe
      cases index with
      | zero =>
          cases hframe
          have hmore : ¬ (0 + 1 = (chunk :: chunks).length) := by
            cases rest <;> simp
          refine ⟨chunk, aad, rfl, ?_, rfl⟩
          rw [decide_eq_false hmore]
          exact haad
      | succ index =>
          obtain ⟨other, data, hother, hdata, hsealed⟩ := ih index hframe
          refine ⟨other, data, hother, ?_, ?_⟩
          · rw [List.length_cons, show start + (index + 1) =
              start + 1 + index by omega]
            rw [show decide (index + 1 + 1 = chunks.length + 1) =
              decide (index + 1 = chunks.length) by simp]
            exact hdata
          · rw [show start + (index + 1) = start + 1 + index by omega]
            exact hsealed

/-- Every frame that `sealStream` yields is an encryption of its call. -/
theorem encrypts_of_sealStream {plaintext sealed : List Bytes}
    (h : runIn (cipher.sealStream identity draws plaintext) [] =
      (.ok (), sealed)) :
    ∃ header frames, sealed = header :: frames ∧ ∀ frame ∈ frames,
      ∃ e, (SealCall.body cipher identity draws plaintext).Encrypts e ∧
        frame = cipher.frameOf e := by
  obtain ⟨dataKey, header, frames, hderive, -, rfl, hsealed⟩ :=
    sealStream_ok h
  refine ⟨header, frames, rfl, ?_⟩
  intro frame hframe
  obtain ⟨index, hindex, hget⟩ := List.getElem_of_mem hframe
  obtain ⟨chunk, aad, hchunk, haad, rfl⟩ := hsealed.frame index
    (List.getElem?_eq_some_iff.mpr ⟨hindex, hget⟩)
  rw [Nat.zero_add] at haad ⊢
  exact ⟨⟨dataKey, draws.nonce index, chunk, aad⟩,
    ⟨index, hchunk, hderive, haad, rfl⟩, rfl⟩

-- ==================================================== what is presented

/-- Of the frames that can be cut out of a stream, only those open, under
any key and with any associated data, that a call encrypted. -/
def Unforged (cipher : DocumentCipher) (calls : List SealCall)
    (stream : Bytes) : Prop :=
  ∀ key nonce ciphertext aad plaintext,
    nonce ++ ciphertext <:+: stream →
    cipher.aead.decrypt key nonce ciphertext aad = some plaintext →
    ∃ call ∈ calls, call.Encrypts ⟨key, nonce, plaintext, aad⟩

/-- Keys derived with different salts differ. -/
def DerivesApart (hkdf : (master salt info : Bytes) → Bytes) : Prop :=
  ∀ master salt info master' salt' info', salt.length = saltBytes →
    salt'.length = saltBytes →
    hkdf master salt info = hkdf master' salt' info' → salt = salt'

/-- The calls drew different salts. -/
def SaltsUnique (calls : List SealCall) : Prop :=
  ∀ call ∈ calls, ∀ other ∈ calls,
    call.draws.salt = other.draws.salt → call = other

/-- The frames open, in order from an index on, to the chunks, the last one
as the last. -/
inductive OpenedAs (cipher : DocumentCipher) (identity : DocumentIdentity)
    (dataKey : Bytes) : Nat → List Bytes → List Bytes → Prop
  | final (index : Nat) (frame chunk aad : Bytes)
      (haad : identity.aad purposeBody index true = .ok aad)
      (hchunk : cipher.openChunk dataKey frame aad = .ok chunk) :
      OpenedAs cipher identity dataKey index [frame] [chunk]
  | next (index : Nat) (frame chunk aad : Bytes)
      (frames chunks : List Bytes)
      (haad : identity.aad purposeBody index false = .ok aad)
      (hchunk : cipher.openChunk dataKey frame aad = .ok chunk)
      (rest : OpenedAs cipher identity dataKey (index + 1) frames chunks) :
      OpenedAs cipher identity dataKey index (frame :: frames)
        (chunk :: chunks)

theorem emitOpened_ok {index : Nat} {frame : Bytes} {final : Bool}
    {yielded yielded' : List Bytes}
    (h : runIn (cipher.emitOpened identity dataKey index frame final)
      yielded = (.ok (), yielded')) :
    ∃ aad chunk, identity.aad purposeBody index final = .ok aad ∧
      cipher.openChunk dataKey frame aad = .ok chunk ∧
      yielded' = yielded ++ [chunk] := by
  unfold emitOpened at h
  obtain ⟨aad, haad, h⟩ := checked_bind_ok_iff.mp h
  obtain ⟨chunk, hchunk, h⟩ := checked_bind_ok_iff.mp h
  cases h
  exact ⟨aad, chunk, haad, hchunk, rfl⟩

/-- What is yielded of frames that all open. -/
theorem openFrames_ok (last : Bytes) (frames : List Bytes) :
    ∀ (index : Nat) {yielded yielded' : List Bytes},
      runIn (do
        cipher.openFrames identity dataKey index frames
        cipher.emitOpened identity dataKey (index + frames.length) last
          true) yielded = (.ok (), yielded') →
      ∃ chunks, yielded' = yielded ++ chunks ∧
        OpenedAs cipher identity dataKey index (frames ++ [last])
          chunks := by
  induction frames with
  | nil =>
      intro index yielded yielded' h
      obtain ⟨aad, chunk, haad, hchunk, rfl⟩ := emitOpened_ok h
      exact ⟨[chunk], rfl, .final index last chunk aad haad hchunk⟩
  | cons frame frames ih =>
      intro index yielded yielded' h
      simp only [openFrames, bind_assoc, List.length_cons] at h
      obtain ⟨_, middle, hfirst, h⟩ := bind_ok_iff.mp h
      obtain ⟨aad, chunk, haad, hchunk, rfl⟩ := emitOpened_ok hfirst
      rw [Nat.add_comm frames.length, ← Nat.add_assoc] at h
      obtain ⟨chunks, rfl, hopened⟩ := ih (index + 1) h
      exact ⟨chunk :: chunks, List.append_assoc _ _ _,
        .next index frame chunk aad _ chunks haad hchunk hopened⟩

/-- A stream that opens is a header and frames that open. -/
theorem openStream_ok {stream opened : List Bytes}
    (h : runIn (cipher.openStream identity stream) [] =
      (.ok (), opened)) :
    ∃ dataKey frames, OpenedAs cipher identity dataKey 0 frames opened ∧
      frames.flatten <:+ stream.flatten := by
  by_cases hshort : stream.flatten.length < DocumentHeader.minimumSize
  · rw [openStream_short stream hshort] at h
    cases h
  · rw [openStream_eq stream (Nat.not_lt.mp hshort)] at h
    obtain ⟨parsed, -, h⟩ := checked_bind_ok_iff.mp h
    obtain ⟨dataKey, -, h⟩ := checked_bind_ok_iff.mp h
    have hcut := (Cut.cut_spec (frameSize_pos parsed.1) (Nat.le_succ _) _
      (stream.flatten.drop parsed.2) (Nat.le_refl _)).2.1
    unfold openBody at h
    simp only at h
    rw [← Nat.zero_add (Cut.cut (frameSize parsed.1)
      (frameSize parsed.1 + 1)
        (stream.flatten.drop parsed.2)).1.length] at h
    obtain ⟨chunks, hchunks, hopened⟩ := openFrames_ok _ _ 0 h
    rw [List.nil_append] at hchunks
    rw [← hchunks] at hopened
    refine ⟨dataKey, _, hopened, ?_⟩
    rw [List.flatten_append, List.flatten_singleton, hcut]
    exact List.drop_suffix _ _

-- ==================================================== one call

/-- A frame that opens is a nonce and a ciphertext that decrypts. -/
theorem openChunk_ok {frame aad chunk : Bytes}
    (h : cipher.openChunk dataKey frame aad = .ok chunk) :
    cipher.aead.decrypt dataKey (frame.take nonceBytes)
      (frame.drop nonceBytes) aad = some chunk := by
  unfold openChunk at h
  by_cases hshort : frame.length < nonceBytes + gcmTagBytes
  · rw [if_pos hshort] at h
    cases h
  · rw [if_neg hshort] at h
    cases hdecrypt : cipher.aead.decrypt dataKey (frame.take nonceBytes)
        (frame.drop nonceBytes) aad with
    | none =>
        rw [hdecrypt] at h
        cases h
    | some plaintext =>
        rw [hdecrypt] at h
        cases h
        rfl

theorem derive_ok {keyId : Text} {salt : Bytes}
    (h : cipher.derive keyId salt identity = .ok dataKey) :
    ∃ master info, dataKey = cipher.hkdf master salt info := by
  unfold derive at h
  split at h
  · cases h
  · cases h
  · split at h
    · cases h
    · cases h
      exact ⟨_, _, rfl⟩

section Splices

variable {calls : List SealCall} {stream : Bytes}

/-- A frame of the stream that opens in a place was encrypted there. -/
theorem Unforged.encrypted (h : Unforged cipher calls stream)
    {frame aad chunk : Bytes} {index : Nat} {final : Bool}
    (hframe : frame <:+: stream)
    (haad : identity.aad purposeBody index final = .ok aad)
    (hchunk : cipher.openChunk dataKey frame aad = .ok chunk) :
    ∃ call ∈ calls, call.identity = identity ∧
      call.purpose = purposeBody ∧
      call.cipher.derive call.cipher.activeKeyId call.draws.salt
        call.identity = .ok dataKey ∧
      call.chunks[index]? = some chunk ∧
      decide (index + 1 = call.chunks.length) = final := by
  rw [← List.take_append_drop nonceBytes frame] at hframe
  obtain ⟨call, hcall, place, hplace, hderive, hdata, -⟩ := h dataKey _ _
    aad chunk hframe (openChunk_ok hchunk)
  obtain ⟨hidentity, hpurpose, rfl, hfinal⟩ :=
    DocumentIdentity.aad_injective hdata haad
  exact ⟨call, hcall, hidentity, hpurpose, hderive, hplace, hfinal⟩

/-- Two calls with one key are one call. -/
theorem call_unique
    (hshared : ∀ call ∈ calls, call.cipher.hkdf = cipher.hkdf)
    (hapart : DerivesApart cipher.hkdf) (hunique : SaltsUnique calls)
    {call other : SealCall} (hcall : call ∈ calls) (hother : other ∈ calls)
    (hderive : call.cipher.derive call.cipher.activeKeyId
      call.draws.salt call.identity = .ok dataKey)
    (hderive' : other.cipher.derive other.cipher.activeKeyId
      other.draws.salt other.identity = .ok dataKey) : call = other := by
  obtain ⟨master, info, hkey⟩ := derive_ok hderive
  obtain ⟨master', info', hkey'⟩ := derive_ok hderive'
  rw [hshared call hcall] at hkey
  rw [hshared other hother] at hkey'
  apply hunique call hcall other hother
  exact hapart _ _ _ _ _ _ call.draws.salt_length other.draws.salt_length
    (hkey.symm.trans hkey')

/-- Frames of the stream that open from a place on are, from there on, the
chunks of one call. -/
theorem OpenedAs.of_one_call
    (hshared : ∀ call ∈ calls, call.cipher.hkdf = cipher.hkdf)
    (hapart : DerivesApart cipher.hkdf) (hunique : SaltsUnique calls)
    (hunforged : Unforged cipher calls stream)
    {index : Nat} {frames chunks : List Bytes}
    (h : OpenedAs cipher identity dataKey index frames chunks)
    (hframes : ∀ frame ∈ frames, frame <:+: stream) :
    ∃ call ∈ calls, call.identity = identity ∧
      call.purpose = purposeBody ∧
      call.cipher.derive call.cipher.activeKeyId call.draws.salt
        call.identity = .ok dataKey ∧
      call.chunks.drop index = chunks := by
  induction h with
  | final index frame chunk aad haad hchunk =>
      obtain ⟨call, hcall, hidentity, hpurpose, hderive, hplace, hlast⟩ :=
        hunforged.encrypted (hframes frame (List.mem_singleton.mpr rfl))
          haad hchunk
      obtain ⟨hindex, hget⟩ := List.getElem?_eq_some_iff.mp hplace
      have hlength : index + 1 = call.chunks.length :=
        of_decide_eq_true hlast
      refine ⟨call, hcall, hidentity, hpurpose, hderive, ?_⟩
      rw [List.drop_eq_getElem_cons hindex, hget, hlength,
        List.drop_length]
  | next index frame chunk aad frames chunks haad hchunk rest ih =>
      obtain ⟨hfirst, hrest⟩ := List.forall_mem_cons.mp hframes
      obtain ⟨call, hcall, hidentity, hpurpose, hderive, hplace, -⟩ :=
        hunforged.encrypted hfirst haad hchunk
      obtain ⟨other, hother, -, -, hderive', hchunks⟩ := ih hrest
      have hsame := call_unique hshared hapart hunique hcall hother
        hderive hderive'
      subst hsame
      obtain ⟨hindex, hget⟩ := List.getElem?_eq_some_iff.mp hplace
      refine ⟨call, hcall, hidentity, hpurpose, hderive, ?_⟩
      rw [List.drop_eq_getElem_cons hindex, hget, hchunks]

/-- Whatever stream is presented under an identity, it opens to the end
only to the plaintext of one body sealed under that identity. -/
theorem openStream_unspliced {blocks opened : List Bytes}
    (hshared : ∀ call ∈ calls, call.cipher.hkdf = cipher.hkdf)
    (hapart : DerivesApart cipher.hkdf) (hunique : SaltsUnique calls)
    (hunforged : Unforged cipher calls blocks.flatten)
    (h : runIn (cipher.openStream identity blocks) [] =
      (.ok (), opened)) :
    ∃ sealer draws plaintext,
      SealCall.body sealer identity draws plaintext ∈ calls ∧
      opened.flatten = plaintext.flatten := by
  obtain ⟨dataKey, frames, hopened, hframes⟩ := openStream_ok h
  obtain ⟨call, hcall, hidentity, hpurpose, -, hchunks⟩ :=
    hopened.of_one_call hshared hapart hunique hunforged (by
      intro frame hframe
      exact (List.infix_of_mem_flatten hframe).trans hframes.isInfix)
  rw [List.drop_zero] at hchunks
  cases call with
  | body sealer other draws plaintext =>
      cases hidentity
      refine ⟨sealer, draws, plaintext, hcall, ?_⟩
      rw [← hchunks]
      exact bodyChunks_flatten sealer.chunkBytes_bounded.1 plaintext
  | filename sealer other draws plaintext =>
      have hdiffer : purposeFilename ≠ purposeBody := by decide
      exact absurd hpurpose hdiffer

end Splices

-- ==================================================== a sealed note

/-- A cipher that knows what it is to encrypt: the tag of anything else is
of bytes 255. -/
def ledgerAead (ledger : List Encryption) : ChunkAead where
  encrypt key nonce plaintext aad :=
    plaintext ++ List.replicate gcmTagBytes
      (if ⟨key, nonce, plaintext, aad⟩ ∈ ledger then 0 else 255)
  decrypt key nonce ciphertext aad :=
    if ciphertext.drop (ciphertext.length - gcmTagBytes) =
        List.replicate gcmTagBytes
          (if ⟨key, nonce, ciphertext.take (ciphertext.length -
            gcmTagBytes), aad⟩ ∈ ledger then 0 else 255) then
      some (ciphertext.take (ciphertext.length - gcmTagBytes))
    else none
  decrypt_encrypt key nonce plaintext aad := by
    simp only [List.length_append, List.length_replicate,
      Nat.add_sub_cancel, List.drop_left, List.take_left, if_true]
  length_encrypt key nonce plaintext aad := by
    rw [List.length_append, List.length_replicate]

/-- A stream without such a tag holds only what is in the ledger. -/
theorem unforged_ledger {calls : List SealCall} {stream : Bytes}
    (cipher : DocumentCipher) {ledger : List Encryption}
    (haead : cipher.aead = ledgerAead ledger)
    (hledger : ∀ e ∈ ledger, ∃ call ∈ calls, call.Encrypts e)
    (hstream : ¬ List.replicate gcmTagBytes 255 <:+: stream) :
    Unforged cipher calls stream := by
  intro key nonce ciphertext aad plaintext hinfix hdecrypt
  rw [haead] at hdecrypt
  unfold ledgerAead at hdecrypt
  simp only [Option.ite_none_right_eq_some, Option.some.injEq] at hdecrypt
  obtain ⟨htag, rfl⟩ := hdecrypt
  by_cases hmem : (⟨key, nonce, ciphertext.take (ciphertext.length -
      gcmTagBytes), aad⟩ : Encryption) ∈ ledger
  · exact hledger _ hmem
  · rw [if_neg hmem] at htag
    refine absurd ?_ hstream
    rw [← htag]
    refine (List.drop_suffix _ _).isInfix.trans ?_
    exact (List.suffix_append nonce ciphertext).isInfix.trans hinfix

/-- Draws that can be told apart by one byte. -/
def drawsOf (byte : UInt8) : Draws where
  salt := List.replicate saltBytes byte
  nonce index := List.replicate nonceBytes (byte + UInt8.ofNat index)
  salt_length := List.length_replicate ..
  nonce_length _ := List.length_replicate ..

/-- The encryption of one chunk of the note, or of its name. -/
def noteEncryption (byte : UInt8) (purpose : Text) (index : Nat)
    (plaintext : Bytes) (final : Bool) : Encryption where
  key := (drawsOf byte).salt ++ textIdentity.info.toOption.getD []
  nonce := (drawsOf byte).nonce index
  plaintext := plaintext
  aad := (textIdentity.aad purpose index final).toOption.getD []

/-- The note has two chunks, and its name one. -/
def noteLedger : List Encryption := [
  noteEncryption 1 purposeBody 0 [72, 101] false,
  noteEncryption 1 purposeBody 1 [121] true,
  noteEncryption 5 purposeFilename 0 [110] true]

def noteCipher : DocumentCipher where
  aead := ledgerAead noteLedger
  hkdf _ salt info := salt ++ info
  key _ := .ok []
  activeKeyId := "k".toList
  chunkBytes := 2
  chunkBytes_bounded := two_le_maxChunkBytes

def noteCalls : List SealCall := [
  .body noteCipher textIdentity (drawsOf 1) [[72], [101, 121]],
  .filename noteCipher textIdentity (drawsOf 5) [110]]

/-- What the body of the note was sealed as. -/
def sealedNote : List Bytes :=
  (runIn (noteCipher.sealStream textIdentity (drawsOf 1)
    [[72], [101, 121]]) []).2

theorem noteLedger_encrypted :
    ∀ e ∈ noteLedger, ∃ call ∈ noteCalls, call.Encrypts e := by
  unfold noteLedger noteCalls
  simp only [List.forall_mem_cons, List.exists_mem_cons_iff]
  refine ⟨Or.inl ⟨0, ?_⟩, Or.inl ⟨1, ?_⟩, Or.inr (Or.inl ⟨0, ?_⟩), ?_⟩
  · decide +kernel
  · decide +kernel
  · decide +kernel
  · simp

/-- The note, in blocks of ten bytes, opens to what was sealed as it. -/
theorem openStream_unspliced_note :
    ∃ sealer draws plaintext,
      SealCall.body sealer textIdentity draws plaintext ∈ noteCalls ∧
      [[72, 101], [121]].flatten = plaintext.flatten := by
  have hshared : ∀ call ∈ noteCalls,
      call.cipher.hkdf = noteCipher.hkdf := by
    unfold noteCalls
    simp [SealCall.cipher]
  have hapart : DerivesApart noteCipher.hkdf := by
    intro master salt info master' salt' info' hsalt hsalt' h
    exact List.append_inj_left h (hsalt.trans hsalt'.symm)
  have hdiffer : (drawsOf 1).salt ≠ (drawsOf 5).salt := by decide
  have hunique : SaltsUnique noteCalls := by
    intro call hcall other hother hsalt
    unfold noteCalls at hcall hother
    rcases List.mem_pair.mp hcall with rfl | rfl <;>
      rcases List.mem_pair.mp hother with rfl | rfl
    · rfl
    · exact absurd hsalt hdiffer
    · exact absurd hsalt.symm hdiffer
    · rfl
  have htags : ¬ List.replicate gcmTagBytes 255 <:+:
      (rechunk sealedNote 10).flatten := by
    decide +kernel
  have hopened : runIn (noteCipher.openStream textIdentity
      (rechunk sealedNote 10)) [] = (.ok (), [[72, 101], [121]]) := by
    decide +kernel
  exact openStream_unspliced hshared hapart hunique
    (unforged_ledger noteCipher rfl noteLedger_encrypted htags) hopened

end DocumentCipher

end PrivacyGateway.Documents
