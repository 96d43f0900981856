import Llmap.Crates
/-!
# Secrets at rest

`secrets.rs`: a secret is sealed under the master key with a random nonce
and associated data that says what it is for, and stored as
`v1.<nonce>.<ciphertext>`. The nonce the random source gives is an
argument here. A stored value is the text of it; `SecretInput` and
`EncryptedSecret`, which wrap the text, are the text.
-/

namespace Llmap

namespace Secrets

/-- `SecretError`. -/
inductive SecretError where
  | invalidMasterKey
  | invalidCiphertext
  | authenticationFailed
  | passwordHashFailed
deriving DecidableEq

/-- `SecretError`'s `Display`. -/
def SecretError.message : SecretError → String
  | .invalidMasterKey => "master key must decode to exactly 32 bytes"
  | .invalidCiphertext => "encrypted secret has an unsupported or invalid format"
  | .authenticationFailed => "encrypted secret failed authentication"
  | .passwordHashFailed => "password hashing failed"

/-- A nonce of `XChaCha20Poly1305`. -/
abbrev Nonce := Vector UInt8 24

/-- `SecretBox`: the master key. -/
structure SecretBox where
  key : Vector UInt8 32
deriving DecidableEq

namespace SecretBox

variable [Sealing]

/-- `SecretBox::encrypt`, with the nonce drawn. -/
def encrypt (box : SecretBox) (nonce : Nonce) (plaintext : String) (associatedData : Bytes) :
    Except SecretError String :=
  match Sealing.encrypt box.key.toList nonce.toList associatedData (asBytes plaintext) with
  | none => .error .authenticationFailed
  | some ciphertext =>
      .ok ("v1." ++ Sealing.base64UrlEncode nonce.toList ++ "." ++
        Sealing.base64UrlEncode ciphertext)

/-- What `decrypt` reads off a stored value: the nonce and the bytes
under it. -/
def parts (stored : String) : Option (Bytes × Bytes) :=
  match (stored.toList.splitOn '.').map String.ofList with
  | ["v1", nonce, encrypted] =>
      match Sealing.base64UrlDecode nonce, Sealing.base64UrlDecode encrypted with
      | some nonce, some encrypted => if nonce.length = 24 then some (nonce, encrypted) else none
      | _, _ => none
  | _ => none

/-- `SecretBox::decrypt`. -/
def decrypt (box : SecretBox) (stored : String) (associatedData : Bytes) :
    Except SecretError String :=
  match parts stored with
  | none => .error .invalidCiphertext
  | some (nonce, encrypted) =>
      match Sealing.decrypt box.key.toList nonce associatedData encrypted with
      | none => .error .authenticationFailed
      | some plaintext =>
          match fromUtf8 plaintext with
          | none => .error .invalidCiphertext
          | some plaintext => .ok plaintext

variable [LawfulSealing]

/-- The parts of a stored value are read back as they were written. -/
theorem parts_encode (nonce : Nonce) (encrypted : Bytes) :
    parts ("v1." ++ Sealing.base64UrlEncode nonce.toList ++ "." ++
      Sealing.base64UrlEncode encrypted) = some (nonce.toList, encrypted) := by
  have hsplit : (("v1." ++ Sealing.base64UrlEncode nonce.toList ++ "." ++
      Sealing.base64UrlEncode encrypted).toList.splitOn '.').map String.ofList =
        ["v1", Sealing.base64UrlEncode nonce.toList, Sealing.base64UrlEncode encrypted] := by
    have hjoin : ("v1." ++ Sealing.base64UrlEncode nonce.toList ++ "." ++
        Sealing.base64UrlEncode encrypted).toList =
          ['.'].intercalate ["v1".toList, (Sealing.base64UrlEncode nonce.toList).toList,
            (Sealing.base64UrlEncode encrypted).toList] := by
      simp [List.intercalate]
    rw [hjoin, List.splitOn_intercalate]
    · simp
    · intro part hpart
      simp only [List.mem_cons, List.not_mem_nil, or_false] at hpart
      rcases hpart with rfl | rfl | rfl
      · decide
      · exact LawfulSealing.dot_notMem_base64Url _
      · exact LawfulSealing.dot_notMem_base64Url _
    · simp
  rw [parts, hsplit]
  simp [LawfulSealing.base64Url_decode_encode]

/-- **What is encrypted decrypts**, under the same key and associated
data. -/
theorem decrypt_of_encrypt {box : SecretBox} {nonce : Nonce} {plaintext stored : String}
    {associatedData : Bytes} (h : box.encrypt nonce plaintext associatedData = .ok stored) :
    box.decrypt stored associatedData = .ok plaintext := by
  unfold encrypt at h
  split at h
  · cases h
  · rename_i ciphertext hsealed
    cases h
    have hopen := LawfulSealing.decrypt_encrypt hsealed
    simp only [decrypt, parts_encode, hopen, fromUtf8_asBytes]

/-- A stored value has a version in front, and so is some text. -/
theorem ne_empty_of_encrypt {box : SecretBox} {nonce : Nonce} {plaintext stored : String}
    {associatedData : Bytes} (h : box.encrypt nonce plaintext associatedData = .ok stored) :
    stored ≠ "" := by
  rintro rfl
  have hdecrypt := decrypt_of_encrypt h
  cases hdecrypt

end SecretBox

/-- `AdminPasswordHash`: the text of a hash. -/
structure AdminPasswordHash where
  value : String
deriving DecidableEq

/-- `AdminPasswordHash::verify`. -/
def AdminPasswordHash.verify [Argon2] (hash : AdminPasswordHash) (password : String) : Bool :=
  match Argon2.passwordHash hash.value with
  | none => false
  | some verifyPassword => verifyPassword (asBytes password)

end Secrets

end Llmap
