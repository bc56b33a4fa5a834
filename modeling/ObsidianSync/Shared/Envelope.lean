import ObsidianSync.Shared.Platform

/-!
# Envelopes of encrypted content

Encrypted content is stored as one blob: a magic number, the version of the format, the nonce,
the tag, and the ciphertext.  Encryption itself belongs to the platform; what it returns has a
nonce and a tag of fixed lengths.

## Main definitions

* `EncryptedBlobParts` — the parts of an envelope, with their lengths.
* `serializeEncryptedBlob`, `isEncryptedBlobEnvelope`, `parseEncryptedBlob` — as the source has
  them.

## Main results

* `parse_serializeEncryptedBlob` — parsing gives back what was serialized.
* `isEncryptedBlobEnvelope_iff` — **the envelopes are the serialized parts.**
-/

namespace ObsidianSync

/-- The length of a nonce. -/
def gcmNonceBytes : ℕ := 12

/-- The length of a tag. -/
def gcmTagBytes : ℕ := 16

/-- The version of the envelope. -/
def encryptedBlobFormatVersion : UInt8 := 1

/-- `ENCRYPTED_BLOB_ALGORITHM`. -/
def encryptedBlobAlgorithm : String := "aes-256-gcm-pbkdf2-sha256-convergent-v1"

/-- The bytes of `OSENC`. -/
def envelopeMagic : Bytes := [0x4f, 0x53, 0x45, 0x4e, 0x43]

/-- `HEADER_BYTES`. -/
def envelopeHeaderBytes : ℕ := envelopeMagic.length + 1 + gcmNonceBytes + gcmTagBytes

/-- The parts of an envelope of the one version there is. -/
structure EncryptedBlobParts where
  nonce : Bytes
  ciphertext : Bytes
  tag : Bytes
  nonce_length : nonce.length = gcmNonceBytes
  tag_length : tag.length = gcmTagBytes

/-- The bytes of an envelope. -/
def serializeEncryptedBlob (parts : EncryptedBlobParts) : Bytes :=
  envelopeMagic ++ [encryptedBlobFormatVersion] ++ parts.nonce ++ parts.tag ++ parts.ciphertext

/-- Whether bytes begin as an envelope does. -/
def isEncryptedBlobEnvelope (bytes : Bytes) : Bool :=
  envelopeHeaderBytes ≤ bytes.length && envelopeMagic.isPrefixOf bytes &&
    bytes[envelopeMagic.length]? = some encryptedBlobFormatVersion

/-- What comes after the version, cut into the nonce, the tag and the ciphertext. -/
def cutParts (body : Bytes) (h : gcmNonceBytes + gcmTagBytes ≤ body.length) :
    EncryptedBlobParts where
  nonce := body.take gcmNonceBytes
  tag := (body.drop gcmNonceBytes).take gcmTagBytes
  ciphertext := body.drop (gcmNonceBytes + gcmTagBytes)
  nonce_length := by
    rw [List.length_take]
    omega
  tag_length := by
    rw [List.length_take, List.length_drop]
    omega

/-- An envelope is long enough for its parts. -/
theorem length_of_isEncryptedBlobEnvelope {bytes : Bytes}
    (h : isEncryptedBlobEnvelope bytes = true) :
    gcmNonceBytes + gcmTagBytes ≤ (bytes.drop (envelopeMagic.length + 1)).length := by
  simp only [isEncryptedBlobEnvelope, Bool.and_eq_true, decide_eq_true_eq] at h
  have hlength := h.1.1
  rw [envelopeHeaderBytes] at hlength
  rw [List.length_drop]
  omega

/-- `parseEncryptedBlob`, which throws where the bytes are no envelope. -/
def parseEncryptedBlob (bytes : Bytes) : Option EncryptedBlobParts :=
  if h : isEncryptedBlobEnvelope bytes = true then
    some (cutParts (bytes.drop (envelopeMagic.length + 1)) (length_of_isEncryptedBlobEnvelope h))
  else none

/-! ### Round trips -/

theorem isEncryptedBlobEnvelope_serialize (parts : EncryptedBlobParts) :
    isEncryptedBlobEnvelope (serializeEncryptedBlob parts) = true := by
  have hlength : envelopeHeaderBytes ≤ (serializeEncryptedBlob parts).length := by
    simp only [serializeEncryptedBlob, List.length_append, List.length_singleton,
      parts.nonce_length, parts.tag_length, envelopeHeaderBytes]
    omega
  rw [isEncryptedBlobEnvelope, decide_eq_true hlength, Bool.true_and]
  simp [serializeEncryptedBlob, envelopeMagic, List.isPrefixOf]

theorem drop_serializeEncryptedBlob (parts : EncryptedBlobParts) :
    (serializeEncryptedBlob parts).drop (envelopeMagic.length + 1)
      = parts.nonce ++ (parts.tag ++ parts.ciphertext) := by
  simp [serializeEncryptedBlob, envelopeMagic]

theorem cutParts_append (parts : EncryptedBlobParts) {body : Bytes}
    (hbody : body = parts.nonce ++ (parts.tag ++ parts.ciphertext))
    (h : gcmNonceBytes + gcmTagBytes ≤ body.length) : cutParts body h = parts := by
  obtain ⟨nonce, ciphertext, tag, hnonce, htag⟩ := parts
  subst hbody
  have hparts : gcmNonceBytes + gcmTagBytes = (nonce ++ tag).length := by
    rw [List.length_append, hnonce, htag]
  simp only [cutParts, EncryptedBlobParts.mk.injEq]
  refine ⟨?_, ?_, ?_⟩
  · rw [← hnonce, List.take_left]
  · rw [hparts, ← List.append_assoc, List.drop_left]
  · rw [← hnonce, List.drop_left, ← htag, List.take_left]

/-- Parsing gives back what was serialized. -/
theorem parse_serializeEncryptedBlob (parts : EncryptedBlobParts) :
    parseEncryptedBlob (serializeEncryptedBlob parts) = some parts := by
  rw [parseEncryptedBlob, dif_pos (isEncryptedBlobEnvelope_serialize parts),
    cutParts_append parts (drop_serializeEncryptedBlob parts)]

/-- Serializing gives back what was parsed. -/
theorem serialize_of_parse {bytes : Bytes} {parts : EncryptedBlobParts}
    (h : parseEncryptedBlob bytes = some parts) : serializeEncryptedBlob parts = bytes := by
  unfold parseEncryptedBlob at h
  split at h
  · next henvelope =>
    obtain rfl := Option.some.inj h
    simp only [isEncryptedBlobEnvelope, Bool.and_eq_true, decide_eq_true_eq] at henvelope
    obtain ⟨⟨-, hmagic⟩, hversion⟩ := henvelope
    obtain ⟨rest, rfl⟩ := List.isPrefixOf_iff_prefix.mp hmagic
    cases rest with
    | nil => simp [envelopeMagic] at hversion
    | cons version body =>
      have hone : version = encryptedBlobFormatVersion := by
        simpa [envelopeMagic] using hversion
      subst hone
      have hdrop : (envelopeMagic ++ encryptedBlobFormatVersion :: body).drop
          (envelopeMagic.length + 1) = body := by simp [envelopeMagic]
      have hbody : body.take gcmNonceBytes ++ ((body.drop gcmNonceBytes).take gcmTagBytes ++
          body.drop (gcmNonceBytes + gcmTagBytes)) = body := by
        rw [← List.drop_drop, List.take_append_drop, List.take_append_drop]
      simp only [serializeEncryptedBlob, cutParts, hdrop, List.append_assoc,
        List.singleton_append]
      rw [List.cons_append, hbody]
  · simp at h

/-- The envelopes are the serialized parts. -/
theorem isEncryptedBlobEnvelope_iff {bytes : Bytes} :
    isEncryptedBlobEnvelope bytes = true ↔ ∃ parts, bytes = serializeEncryptedBlob parts := by
  constructor
  · intro h
    obtain ⟨parts, hparts⟩ : ∃ parts, parseEncryptedBlob bytes = some parts :=
      ⟨_, dif_pos h⟩
    exact ⟨parts, (serialize_of_parse hparts).symm⟩
  · rintro ⟨parts, rfl⟩
    exact isEncryptedBlobEnvelope_serialize parts

end ObsidianSync
