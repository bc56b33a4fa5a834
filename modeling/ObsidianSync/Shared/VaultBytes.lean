import ObsidianSync.Shared.Envelope

/-!
# Encrypted content

`serializeEncryptedBlob` checks the parts that it is given and puts the tag before the
ciphertext; AES-GCM gives and takes it behind.  What WebCrypto computes is a parameter.

## Main definitions

* `BlobParts` — the parts of an envelope as they are given, with checks to pass.
* `WebCrypto`, `CryptoLaws` — HMAC and AES-GCM, and what is used of them.
* `encryptVaultBytes`, `decryptVaultBytes` — as the source has them.

## Main results

* `serializeParts_eq_ok_iff`, `parseParts_eq` — the parts that pass are those of an envelope.
* `envelope_codec` — **the round trips**, of parts, of envelopes and of content.
-/

namespace ObsidianSync

/-! ### The envelope -/

/-- The parts of an envelope, as they are given. -/
structure BlobParts where
  version : ℕ
  algorithm : String
  nonce : Bytes
  ciphertext : Bytes
  tag : Bytes
  deriving DecidableEq

/-- `serializeEncryptedBlob` with its checks, and the messages it throws. -/
def serializeParts (parts : BlobParts) : Except String Bytes :=
  if parts.version ≠ encryptedBlobFormatVersion.toNat ∨
      parts.algorithm ≠ encryptedBlobAlgorithm then
    .error "Unsupported encrypted blob format"
  else if parts.nonce.length ≠ gcmNonceBytes then .error "Invalid encrypted blob nonce length"
  else if parts.tag.length ≠ gcmTagBytes then .error "Invalid encrypted blob tag length"
  else
    .ok [envelopeMagic, [UInt8.ofNat parts.version], parts.nonce, parts.tag,
      parts.ciphertext].flatten

/-- `parseEncryptedBlob`, by its offsets. -/
def parseParts (bytes : Bytes) : Except String BlobParts :=
  if isEncryptedBlobEnvelope bytes = true then
    let nonceStart := envelopeMagic.length + 1
    let tagStart := nonceStart + gcmNonceBytes
    let ciphertextStart := tagStart + gcmTagBytes
    .ok { version := encryptedBlobFormatVersion.toNat
          algorithm := encryptedBlobAlgorithm
          nonce := bytes.extract nonceStart tagStart
          tag := bytes.extract tagStart ciphertextStart
          ciphertext := bytes.drop ciphertextStart }
  else .error "Unsupported or invalid encrypted blob envelope"

/-- The parts without their proofs. -/
def EncryptedBlobParts.toParts (parts : EncryptedBlobParts) : BlobParts :=
  { version := encryptedBlobFormatVersion.toNat
    algorithm := encryptedBlobAlgorithm
    nonce := parts.nonce
    ciphertext := parts.ciphertext
    tag := parts.tag }

/-- **The parts that pass the checks** are those of an envelope. -/
theorem serializeParts_eq_ok_iff {parts : BlobParts} {bytes : Bytes} :
    serializeParts parts = .ok bytes ↔
      ∃ valid : EncryptedBlobParts,
        parts = valid.toParts ∧ bytes = serializeEncryptedBlob valid := by
  constructor
  · intro h
    unfold serializeParts at h
    split at h
    · cases h
    next hformat =>
    split at h
    · cases h
    next hnonce =>
    split at h
    · cases h
    next htag =>
    obtain ⟨version, algorithm, nonce, ciphertext, tag⟩ := parts
    simp only [not_or, not_not] at hformat hnonce htag
    obtain ⟨rfl, rfl⟩ := hformat
    refine ⟨⟨nonce, ciphertext, tag, hnonce, htag⟩, rfl, ?_⟩
    rw [← Except.ok.inj h]
    simp [serializeEncryptedBlob]
  · rintro ⟨valid, rfl, rfl⟩
    have hnonce : valid.toParts.nonce.length = gcmNonceBytes := valid.nonce_length
    have htag : valid.toParts.tag.length = gcmTagBytes := valid.tag_length
    rw [serializeParts, if_neg (by simp [EncryptedBlobParts.toParts]),
      if_neg (not_not.mpr hnonce), if_neg (not_not.mpr htag)]
    simp [serializeEncryptedBlob, EncryptedBlobParts.toParts]

/-- The parts between the offsets are those after the version. -/
theorem parseParts_eq_ok_iff {parts : BlobParts} {bytes : Bytes} :
    parseParts bytes = .ok parts ↔
      ∃ valid : EncryptedBlobParts, parts = valid.toParts ∧
        parseEncryptedBlob bytes = some valid := by
  unfold parseParts parseEncryptedBlob
  by_cases h : isEncryptedBlobEnvelope bytes = true
  · rw [if_pos h, dif_pos h]
    have hparts : ∀ valid : EncryptedBlobParts,
        some (cutParts (bytes.drop (envelopeMagic.length + 1))
          (length_of_isEncryptedBlobEnvelope h)) = some valid ↔
        valid = cutParts (bytes.drop (envelopeMagic.length + 1))
          (length_of_isEncryptedBlobEnvelope h) := fun valid => by rw [Option.some.injEq, eq_comm]
    simp only [hparts, exists_eq_right, Except.ok.injEq]
    rw [eq_comm]
    simp [cutParts, EncryptedBlobParts.toParts, List.drop_drop, envelopeMagic, gcmNonceBytes,
      gcmTagBytes]
  · rw [if_neg h, dif_neg h]
    simp

/-! ### Content -/

/-- HMAC and AES-GCM, as WebCrypto has them. -/
structure WebCrypto (AesKey HmacKey : Type) where
  sign : HmacKey → Bytes → Bytes
  encrypt : AesKey → (nonce plaintext : Bytes) → Bytes
  decrypt : AesKey → (nonce sealed : Bytes) → Option Bytes

/-- The two keys of a vault. -/
structure VaultContentKey (AesKey HmacKey : Type) where
  aesKey : AesKey
  hmacKey : HmacKey

section

variable {AesKey HmacKey : Type}

/-- What is used of HMAC-SHA-256 and of AES-GCM. -/
structure CryptoLaws (C : WebCrypto AesKey HmacKey) : Prop where
  /-- A signature has the length of the hash. -/
  sign_length : ∀ key text, (C.sign key text).length = 32
  /-- The sealed form is a ciphertext of the length of the plaintext, and the tag. -/
  encrypt_length : ∀ key nonce plaintext, nonce.length = gcmNonceBytes →
    (C.encrypt key nonce plaintext).length = plaintext.length + gcmTagBytes
  /-- Decryption inverts encryption. -/
  decrypt_encrypt : ∀ key nonce plaintext, nonce.length = gcmNonceBytes →
    C.decrypt key nonce (C.encrypt key nonce plaintext) = some plaintext

/-- The envelope of a plaintext, under a nonce that is made from it. -/
def encryptVaultBytes (C : WebCrypto AesKey HmacKey) (plaintext : Bytes)
    (key : VaultContentKey AesKey HmacKey) : BlobParts :=
  let signature := C.sign key.hmacKey plaintext
  let nonce := signature.take gcmNonceBytes
  let sealed := C.encrypt key.aesKey nonce plaintext
  { version := encryptedBlobFormatVersion.toNat
    algorithm := encryptedBlobAlgorithm
    nonce
    ciphertext := sealed.take (sealed.length - gcmTagBytes)
    tag := sealed.drop (sealed.length - gcmTagBytes) }

/-- The plaintext of an envelope, or why there is none. -/
def decryptVaultBytes (C : WebCrypto AesKey HmacKey) (envelope : Bytes)
    (key : VaultContentKey AesKey HmacKey) : Except String Bytes :=
  match parseParts envelope with
  | .error e => .error e
  | .ok parts =>
    let sealed := parts.ciphertext ++ parts.tag
    match C.decrypt key.aesKey parts.nonce sealed with
    | none => .error "OperationError"
    | some plaintext => .ok plaintext

variable {C : WebCrypto AesKey HmacKey}

/-- Encrypted content passes the checks. -/
theorem exists_serializeParts_encryptVaultBytes (laws : CryptoLaws C) (plaintext : Bytes)
    (key : VaultContentKey AesKey HmacKey) :
    ∃ valid : EncryptedBlobParts, encryptVaultBytes C plaintext key = valid.toParts := by
  have hnonce : ((C.sign key.hmacKey plaintext).take gcmNonceBytes).length = gcmNonceBytes := by
    rw [List.length_take, laws.sign_length]
    rfl
  refine ⟨⟨_, _, _, hnonce, ?_⟩, rfl⟩
  rw [List.length_drop, laws.encrypt_length _ _ _ hnonce]
  omega

/-- **The round trips**: of the parts that are serialized, of the bytes that are parsed, and of
what is encrypted; and the envelopes are what is serialized. -/
theorem envelope_codec (laws : CryptoLaws C) :
    (∀ parts bytes, serializeParts parts = .ok bytes → parseParts bytes = .ok parts) ∧
      (∀ bytes parts, parseParts bytes = .ok parts → serializeParts parts = .ok bytes) ∧
      (∀ bytes, isEncryptedBlobEnvelope bytes = true ↔
        ∃ parts, serializeParts parts = .ok bytes) ∧
      ∀ key plaintext, ∃ bytes, serializeParts (encryptVaultBytes C plaintext key) = .ok bytes ∧
        decryptVaultBytes C bytes key = .ok plaintext := by
  have hparse : ∀ parts bytes, serializeParts parts = .ok bytes → parseParts bytes = .ok parts := by
    intro parts bytes h
    obtain ⟨valid, rfl, rfl⟩ := serializeParts_eq_ok_iff.mp h
    exact parseParts_eq_ok_iff.mpr ⟨valid, rfl, parse_serializeEncryptedBlob valid⟩
  refine ⟨hparse, fun bytes parts h => ?_, fun bytes => ?_, fun key plaintext => ?_⟩
  · obtain ⟨valid, rfl, hvalid⟩ := parseParts_eq_ok_iff.mp h
    exact serializeParts_eq_ok_iff.mpr ⟨valid, rfl, (serialize_of_parse hvalid).symm⟩
  · rw [isEncryptedBlobEnvelope_iff]
    constructor
    · rintro ⟨valid, hvalid⟩
      exact ⟨_, serializeParts_eq_ok_iff.mpr ⟨valid, rfl, hvalid⟩⟩
    · rintro ⟨parts, h⟩
      obtain ⟨valid, -, hvalid⟩ := serializeParts_eq_ok_iff.mp h
      exact ⟨valid, hvalid⟩
  · obtain ⟨valid, hvalid⟩ := exists_serializeParts_encryptVaultBytes laws plaintext key
    have hserialize := serializeParts_eq_ok_iff.mpr ⟨valid, hvalid, rfl⟩
    have hnonce : (encryptVaultBytes C plaintext key).nonce.length = gcmNonceBytes := by
      rw [hvalid]
      exact valid.nonce_length
    have hsealed : (encryptVaultBytes C plaintext key).ciphertext ++
        (encryptVaultBytes C plaintext key).tag =
          C.encrypt key.aesKey (encryptVaultBytes C plaintext key).nonce plaintext :=
      List.take_append_drop _ _
    refine ⟨_, hserialize, ?_⟩
    rw [decryptVaultBytes, hparse _ _ hserialize]
    dsimp only
    rw [hsealed, laws.decrypt_encrypt _ _ _ hnonce]

end

/-! ### A content that is encrypted -/

/-- The bytes with those of a key stream added. -/
def addStream : Bytes → Bytes → Bytes
  | k :: stream, b :: bytes => (b ^^^ k) :: addStream stream bytes
  | [], bytes => bytes
  | _ :: _, [] => []

theorem length_addStream (stream bytes : Bytes) :
    (addStream stream bytes).length = bytes.length := by
  induction stream, bytes using addStream.induct with
  | case1 k stream b bytes ih => simp [addStream, ih]
  | case2 bytes => rfl
  | case3 => rfl

theorem addStream_addStream (stream bytes : Bytes) :
    addStream stream (addStream stream bytes) = bytes := by
  induction stream, bytes using addStream.induct with
  | case1 k stream b bytes ih =>
    rw [addStream, addStream, ih, UInt8.xor_assoc, UInt8.xor_self, UInt8.xor_zero]
  | case2 bytes => rfl
  | case3 => rfl

/-- A signature and a sealed form that agree with the real ones for keys of zeros and the text
`one`. -/
def sampleCrypto : WebCrypto Unit Unit where
  sign _ _ :=
    [0xba, 0x5e, 0x9e, 0x1f, 0x58, 0xea, 0x8b, 0x86, 0xdc, 0x34, 0x86, 0x4e, 0x46, 0x4f, 0xdf, 0x3f,
      0xb2, 0x77, 0x64, 0x0e, 0x17, 0x36, 0x18, 0x1c, 0x61, 0x2d, 0xb6, 0xa7, 0x12, 0x98, 0x6b,
      0xec]
  encrypt _ _ plaintext :=
    addStream [0x1b, 0xc6, 0xf0] plaintext ++
      [0xdc, 0xa3, 0x07, 0x5e, 0xb4, 0x93, 0x81, 0x98, 0x9e, 0x2c, 0x82, 0x6a, 0xa2, 0x9f, 0xe2,
        0x08]
  decrypt _ _ sealed := some (addStream [0x1b, 0xc6, 0xf0] (sealed.take (sealed.length - 16)))

theorem cryptoLaws_sampleCrypto : CryptoLaws sampleCrypto where
  sign_length _ _ := rfl
  encrypt_length _ _ plaintext _ := by
    simp [sampleCrypto, length_addStream, gcmTagBytes]
  decrypt_encrypt _ _ plaintext _ := by
    simp [sampleCrypto, List.take_left', addStream_addStream]

theorem envelope_codec_one :
    ∃ bytes,
      serializeParts (encryptVaultBytes sampleCrypto [0x6f, 0x6e, 0x65] ⟨(), ()⟩) = .ok bytes ∧
      bytes.drop envelopeHeaderBytes = [0x74, 0xa8, 0x95] ∧
      decryptVaultBytes sampleCrypto bytes ⟨(), ()⟩ = .ok [0x6f, 0x6e, 0x65] := by
  obtain ⟨bytes, hserialize, hdecrypt⟩ :=
    (envelope_codec cryptoLaws_sampleCrypto).2.2.2 ⟨(), ()⟩ [0x6f, 0x6e, 0x65]
  refine ⟨bytes, hserialize, ?_, hdecrypt⟩
  obtain rfl := Except.ok.inj (hserialize.symm.trans (rfl : _ = Except.ok _))
  decide +kernel

end ObsidianSync
