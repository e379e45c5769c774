import Mathlib.Data.List.TakeWhile
import PgWalk.License.Codec

/-! Licenses that are encrypted, signed and written in base 62, and how they are verified. -/

namespace PgWalk

open Digits (ofBytes)

namespace Base62

def digitChar (digit : Nat) : UInt8 :=
  .ofNat (if digit < 10 then 48 + digit else if digit < 36 then 87 + digit else 29 + digit)

def digitOf (char : UInt8) : Option Nat :=
  if 48 ≤ char ∧ char ≤ 57 then some (char.toNat - 48)
  else if 97 ≤ char ∧ char ≤ 122 then some (char.toNat - 87)
  else if 65 ≤ char ∧ char ≤ 90 then some (char.toNat - 29)
  else none

variable (data : List UInt8)

/-- Some bytes as one number in base 62. -/
def encodeToString : List UInt8 :=
  let digits := Digits.shortest 62 (ofBytes data)
  (if digits = [] then [0] else digits).map digitChar

/-- A number from an optional sign, which is dropped, and some digits. -/
def setString (s : List UInt8) : Option Nat :=
  let digits := if s.head? = some 43 ∨ s.head? = some 45 then s.tail else s
  if digits.isEmpty then none else (digits.mapM digitOf).map (Digits.value 62)

def decodeString (s : List UInt8) : Except Fault (List UInt8) :=
  match setString s with
  | none => .error (.error "cannot parse base62")
  | some i => .ok (Digits.toBytes i)

theorem digitOf_digitChar : ∀ digit < 62, digitOf (digitChar digit) = some digit ∧
    digitChar digit ≠ 43 ∧ digitChar digit ≠ 45 := by
  decide

/-- A text of digits is read as their number; none is a sign. -/
theorem setString_digits {digits : List Nat} (small : ∀ digit ∈ digits, digit < 62)
    (filled : digits ≠ []) :
    setString (digits.map digitChar) = some (Digits.value 62 digits) := by
  have read : (digits.map digitChar).mapM digitOf = some digits := by
    clear filled
    induction digits with
    | nil => rfl
    | cons digit rest ih =>
      rw [List.forall_mem_cons] at small
      rw [List.map_cons, List.mapM_cons, (digitOf_digitChar digit small.1).1, ih small.2]
      rfl
  obtain ⟨first, rest, rfl⟩ := List.exists_cons_of_ne_nil filled
  obtain ⟨-, plus, minus⟩ := digitOf_digitChar first (small first List.mem_cons_self)
  simp only [List.map_cons] at read ⊢
  simp [setString, plus, minus, read]

/-- The text of some bytes stands for them without leading zeros. -/
theorem decodeString_encodeToString :
    decodeString (encodeToString data) = .ok (data.dropWhile (· == 0)) := by
  have number := Digits.value_shortest 62 (ofBytes data)
  have read : setString (encodeToString data) = some (ofBytes data) := by
    rw [encodeToString]
    by_cases zero : Digits.shortest 62 (ofBytes data) = []
    · rw [← number, zero]
      decide
    · have small : ∀ digit ∈ Digits.shortest 62 (ofBytes data), digit < 62 := fun _ member =>
        Nat.digits_lt_base (by decide) (List.mem_reverse.mp member)
      rw [if_neg zero, setString_digits small zero, number]
  rw [decodeString, read, ← Digits.toBytes_ofBytes]

/-- Bytes are read back from their text unless the first is zero. -/
theorem decodeString_encodeToString_iff :
    decodeString (encodeToString data) = .ok data ↔ data.head? ≠ some 0 := by
  rw [decodeString_encodeToString]
  cases data <;> simp

end Base62

open Base62

/-- What licenses need from other libraries. -/
structure LicenseLib where
  -- The signature for a private key and a message, and the test for a public key.
  sign : List UInt8 → List UInt8 → List UInt8
  verify : List UInt8 → List UInt8 → List UInt8 → Bool
  -- Encryption for a key and a nonce.
  seal_ : List UInt8 → List UInt8 → List UInt8 → List UInt8
  open_ : List UInt8 → List UInt8 → List UInt8 → Except String (List UInt8)
  marshalJSON : License → Except String (List UInt8)
  unmarshalJSON : List UInt8 → Except String License
  quote : String → String
  formatDay : Int → String

namespace License

variable (lib : LicenseLib) (aesKey privateKey publicKey nonce : List UInt8)

def marshal (l : License) : Except Fault (List UInt8) :=
  if l.version = binaryVersion then l.marshalBinary
  else if l.version = jsonVersion then
    match lib.marshalJSON l with
    | .error err => .error (.error err)
    | .ok json => .ok (Digits.fixed 2 l.version.toNat ++ json)
  else .error (.error "license version is invalid")

def newCipher (failed : String) : Except Fault Unit :=
  if aesKey.length = 16 ∨ aesKey.length = 24 ∨ aesKey.length = 32 then .ok ()
  else .error (.error (failed ++ ": newcipher failed: crypto/aes: invalid key size " ++
    toString aesKey.length))

/-- The license behind the nonce that it is encrypted with. -/
def encryptLicense (license : License) : Except Fault (List UInt8) := do
  let licenseData ← license.marshal lib
  newCipher aesKey "encryption failed"
  .ok (nonce ++ lib.seal_ aesKey nonce licenseData)

/-- The encrypted license behind its signature. -/
def sign (license : License) : Except Fault (List UInt8) := do
  let encrypted ← encryptLicense lib aesKey nonce license
  if privateKey.length ≠ 64 then
    .error (.panic ("ed25519: bad private key length: " ++ toString privateKey.length))
  else .ok (lib.sign privateKey encrypted ++ encrypted)

def decrypt (encrypted : List UInt8) : Except Fault (List UInt8) :=
  if encrypted.length < 12 then .error (.error "decryption failed: encrypted data is too short")
  else do
    newCipher aesKey "decryption failed"
    match lib.open_ aesKey (encrypted.take 12) (encrypted.drop 12) with
    | .error err => .error (.error ("decryption failed: decrypt failed: " ++ err))
    | .ok decrypted => .ok decrypted

def readAndVerifyLicense (licenseData : List UInt8) : Except Fault License := do
  let (signature, encryptedData) ← readBytes licenseData 64
  if publicKey.length ≠ 32 then
    .error (.panic ("ed25519: bad public key length: " ++ toString publicKey.length))
  else if !lib.verify publicKey encryptedData signature then
    .error (.error "signature verification failed")
  else
    let decrypted ← decrypt lib aesKey encryptedData
    unmarshalLicense lib.unmarshalJSON decrypted

/-- The start of a day in nanoseconds, computed in 64 bits. -/
def asDate (lt : UInt64) : Int :=
  let time : Int := 1743552000 * 10 ^ 9 + Int.bmod (lt.toNat * 10 ^ 9) (2 ^ 64)
  time / (86400 * 10 ^ 9) * (86400 * 10 ^ 9)

def hexDigit (char : Char) : Option Nat :=
  if '0' ≤ char ∧ char ≤ '9' then some (char.toNat - 48)
  else if 'a' ≤ char ∧ char ≤ 'f' then some (char.toNat - 87)
  else if 'A' ≤ char ∧ char ≤ 'F' then some (char.toNat - 55)
  else none

def hexDecode : List Char → Option (List UInt8)
  | [] => some []
  | [_] => none
  | high :: low :: rest => do
    let byte := 16 * (← hexDigit high) + (← hexDigit low)
    return .ofNat byte :: (← hexDecode rest)

def aesKeyStr : String := "46b95ecd40a4ffc6b5214813050ba30c34077040ba3f77be49138683bc7a2991"

def allProductsPublicKeys : List (String × String) :=
  [("pg2sqs", "1f61afae08769fc2be99ac36386da948ebfcb006cd26172df0151f837899bda9"),
    ("pg2redis", "f8b3ae33c3e2e8b83e36774642ebc936df2434f5de0c3f2758471335f1a7adc9")]

def readAndVerifyLicenseFromBase62 (product : String) (today : Int) (licBase62 : List UInt8) :
    Except Fault License :=
  match allProductsPublicKeys.lookup product with
  | none => .error (.error (lib.quote product ++ " is not a valid product\n"))
  | some publicKeyStr =>
    match hexDecode aesKeyStr.toList, hexDecode publicKeyStr.toList with
    | none, _ => .error (.error "failed to decode AES key")
    | some _, none => .error (.error "failed to decode public key")
    | some aesKey, some publicKey => do
      let licenseData ← wrapped "failed to parse license" (decodeString licBase62)
      let license ← wrapped "failed to verify license"
        (readAndVerifyLicense lib aesKey publicKey licenseData)
      if asDate license.start ≤ today ∧ today < asDate license.end_ then .ok license
      else .error (.error ("license is not valid at " ++ lib.formatDay today))

/-- Matching keys: a signature is accepted, an encryption decrypted. -/
structure Matching : Prop where
  cipher : aesKey.length = 16 ∨ aesKey.length = 24 ∨ aesKey.length = 32
  privateSize : privateKey.length = 64
  publicSize : publicKey.length = 32
  signature : ∀ message, (lib.sign privateKey message).length = 64
  verifies : ∀ message, lib.verify publicKey message (lib.sign privateKey message) = true
  decrypts : ∀ nonce data, lib.open_ aesKey nonce (lib.seal_ aesKey nonce data) = .ok data

/-- A call comes back, with a value or with an error. -/
def Returns {α : Type} (call : Except Fault α) : Prop :=
  ∀ fault, call = .error fault → ∃ err, fault = .error err

/-- Data from which every field that a version asks for can be taken. -/
def WellSized (data : List UInt8) : Prop :=
  let prodLen := ofBytes ((data.drop 6).take 4)
  let custLen := ofBytes ((data.drop (10 + prodLen)).take 4)
  2 ≤ data.length ∧
    (ofBytes (data.take 2) = binaryVersion.toNat → 30 + prodLen + custLen ≤ data.length)

/-- A signature and, where it is accepted and decrypted, a whole license. -/
def Whole (data : List UInt8) : Prop :=
  64 ≤ data.length ∧ (lib.verify publicKey (data.drop 64) (data.take 64) = true →
    ∀ plain, decrypt lib aesKey (data.drop 64) = .ok plain → WellSized plain)

variable {lib aesKey privateKey publicKey nonce}

/-- What is signed is the binary form of the license, sealed behind the nonce. -/
theorem sign_eq_ok {license : License} {signed : List UInt8}
    (keys : Matching lib aesKey privateKey publicKey) (binary : license.version = binaryVersion) :
    sign lib aesKey privateKey nonce license = .ok signed ↔
      ∃ data, license.marshalBinary = .ok data ∧
        lib.sign privateKey (nonce ++ lib.seal_ aesKey nonce data) ++
          (nonce ++ lib.seal_ aesKey nonce data) = signed := by
  simp [sign, encryptLicense, marshal, binary, newCipher, keys.cipher, keys.privateSize, bind_eq_ok]

/-- What was signed is accepted and opened. -/
theorem readAndVerifyLicense_sign (keys : Matching lib aesKey privateKey publicKey)
    (random : nonce.length = 12) (data : List UInt8) :
    readAndVerifyLicense lib aesKey publicKey
      (lib.sign privateKey (nonce ++ lib.seal_ aesKey nonce data) ++
        (nonce ++ lib.seal_ aesKey nonce data)) = unmarshalLicense lib.unmarshalJSON data := by
  -- The signature and the nonce are cut off where they were put.
  have opened : decrypt lib aesKey (nonce ++ lib.seal_ aesKey nonce data) = .ok data := by
    simp [decrypt, newCipher, keys.cipher, ← random, keys.decrypts, Bind.bind, Except.bind]
  simp [readAndVerifyLicense, readBytes_append (keys.signature _), keys.publicSize, keys.verifies,
    opened, Bind.bind, Except.bind]

/--
A license is signed, read back and verified exactly when its size fits into 32 bits and its
signature does not start with a zero.
-/
theorem issued_license_verifies_iff (keys : Matching lib aesKey privateKey publicKey)
    {license : License} (binary : license.version = binaryVersion) (random : nonce.length = 12) :
    (license.size < 2 ^ 32 → ∃ signed, sign lib aesKey privateKey nonce license = .ok signed) ∧
    ((∃ signed, sign lib aesKey privateKey nonce license = .ok signed ∧
      decodeString (encodeToString signed) = .ok signed ∧
      (decodeString (encodeToString signed) >>= readAndVerifyLicense lib aesKey publicKey) =
        .ok license) ↔
    license.size < 2 ^ 32 ∧
      (lib.sign privateKey (nonce ++ lib.seal_ aesKey nonce license.encoded)).head? ≠ some 0) := by
  -- Nothing is dropped exactly when no zero stands in front.
  have signed (small) : sign lib aesKey privateKey nonce license = .ok _ :=
    (sign_eq_ok keys binary).mpr ⟨_, marshalBinary_eq small, rfl⟩
  have whole (message : List UInt8) : decodeString (encodeToString (lib.sign privateKey message ++
      message)) = .ok (lib.sign privateKey message ++ message) ↔
      (lib.sign privateKey message).head? ≠ some 0 := by
    have length := keys.signature message
    rw [decodeString_encodeToString]
    cases signature : lib.sign privateKey message <;> simp_all
  refine ⟨fun small => ⟨_, signed small⟩, ?_, fun ⟨small, first⟩ => ⟨_, signed small, ?_⟩⟩
  · rintro ⟨_, issued, back, verified⟩
    obtain ⟨data, made, rfl⟩ := (sign_eq_ok keys binary).mp issued
    rw [back] at verified
    have read := (readAndVerifyLicense_sign keys random data).symm.trans verified
    -- The fields fit into the data, whose length is a number of 32 bits.
    have fits := size_le_of_unmarshalLicense read binary
    rw [length_marshalBinary made] at fits
    have small := fits.trans_lt (Nat.mod_lt _ (by decide))
    cases made.symm.trans (marshalBinary_eq small)
    exact ⟨small, (whole _).mp back⟩
  · have back := (whole _).mpr first
    rw [back]
    exact ⟨rfl, (readAndVerifyLicense_sign keys random _).trans
      (unmarshalLicense_encoded binary small)⟩

section

variable {α β : Type} {data : List UInt8}

/-- Two calls in sequence come back if each of them does. -/
theorem returns_bind {first : Except Fault α} {next : α → Except Fault β} :
    Returns (first >>= next) ↔
      Returns first ∧ ∀ value, first = .ok value → Returns (next value) := by
  cases first with
  | error fault | ok value => simp [Returns, Bind.bind, Except.bind]

theorem returns_ok (value : α) : Returns (.ok value : Except Fault α) := by
  simp [Returns]

theorem returns_error (err : String) : Returns (.error (.error err) : Except Fault α) := by
  simp [Returns]

/-- Cutting bytes off comes back where there are as many. -/
theorem returns_readBytes {count : Nat} {next : List UInt8 × List UInt8 → Except Fault α} :
    Returns (readBytes data count >>= next) ↔
      count ≤ data.length ∧ Returns (next (data.take count, data.drop count)) := by
  have cut : Returns (readBytes data count) ↔ count ≤ data.length := by
    rw [readBytes]
    split <;> simp_all [Returns, throw, throwThe, MonadExceptOf.throw, Pure.pure, Except.pure]
  rw [returns_bind, cut]
  refine and_congr_right fun enough => ?_
  simp [readBytes_eq_ok, enough]

/-- Another text for an error changes nothing. -/
theorem returns_wrapped {failed : String} {call : Except Fault α} :
    Returns (wrapped failed call) ↔ Returns call := by
  match call with
  | .ok value => rfl
  | .error (.error err) => simp only [wrapped, returns_error]
  | .error (.panic _) | .error (.fatal _) => rfl

/-- Reading a license comes back exactly when every field has its bytes. -/
theorem returns_unmarshalLicense (unmarshalJSON : List UInt8 → Except String License) :
    Returns (unmarshalLicense unmarshalJSON data) ↔ WellSized data := by
  -- Each field needs its bytes behind the fields before it.
  simp only [unmarshalLicense, returns_readBytes, WellSized]
  refine and_congr_right fun enough => ?_
  split
  case isTrue binary =>
    simp only [binary, true_imp_iff, unmarshalBinaryLicense, returns_readBytes, List.length_drop,
      List.drop_drop, Nat.reduceAdd, pure, Except.pure, returns_ok, and_true]
    omega
  case isFalse other =>
    simp only [other, false_imp_iff, iff_true]
    split
    · cases unmarshalJSON (data.drop 2) with
      | error err => exact returns_error err
      | ok license => exact returns_ok _
    · exact returns_error _

/-- Whatever is to be decrypted, the call comes back. -/
theorem returns_decrypt (encrypted : List UInt8) : Returns (decrypt lib aesKey encrypted) := by
  rw [decrypt]
  split
  · exact returns_error _
  · refine returns_bind.mpr ⟨?_, fun _ _ => ?_⟩
    · rw [newCipher]
      split
      · exact returns_ok ()
      · exact returns_error _
    · cases lib.open_ aesKey (encrypted.take 12) (encrypted.drop 12) with
      | error err => exact returns_error _
      | ok decrypted => exact returns_ok decrypted

/-- Verifying comes back if there is a signature and nothing is missing. -/
theorem returns_readAndVerifyLicense (sized : publicKey.length = 32) :
    Returns (readAndVerifyLicense lib aesKey publicKey data) ↔ Whole lib aesKey publicKey data := by
  rw [readAndVerifyLicense, returns_readBytes, Whole]
  refine and_congr_right fun _ => ?_
  cases accepted : lib.verify publicKey (data.drop 64) (data.take 64) with
  | false => simp [sized, accepted, returns_error]
  | true =>
    simp [sized, accepted, returns_bind, returns_decrypt, returns_unmarshalLicense]

end

/--
A text is accepted or rejected exactly when what it stands for is long enough for its signature
and, behind an accepted one, for the fields of its license.
-/
theorem verification_returns_iff (lib : LicenseLib) :
    (∀ item ∈ allProductsPublicKeys, ∃ aesKey publicKey, hexDecode aesKeyStr.toList = some aesKey ∧
      hexDecode item.2.toList = some publicKey ∧ ∀ today licBase62,
        Returns (readAndVerifyLicenseFromBase62 lib item.1 today licBase62) ↔
          ∀ data, decodeString licBase62 = .ok data → Whole lib aesKey publicKey data) ∧
    ∀ data, Returns (unmarshalLicense lib.unmarshalJSON data) ↔ WellSized data := by
  -- The keys in the source are hexadecimal texts of the right lengths.
  refine ⟨fun item known => ?_, fun data => returns_unmarshalLicense _⟩
  have decoded : (hexDecode aesKeyStr.toList).isSome := by decide
  have checked : allProductsPublicKeys.all fun item =>
      allProductsPublicKeys.lookup item.1 == some item.2 &&
        (hexDecode item.2.toList).any (·.length == 32) := by decide
  obtain ⟨aesKey, aesIs⟩ := Option.isSome_iff_exists.mp decoded
  have checked := List.all_eq_true.mp checked item known
  rw [Bool.and_eq_true, beq_iff_eq, Option.any_eq_true] at checked
  obtain ⟨found, publicKey, publicIs, sized⟩ := checked
  refine ⟨aesKey, publicKey, aesIs, publicIs, fun today licBase62 => ?_⟩
  have parsed : Returns (decodeString licBase62) := by
    rw [decodeString]
    split
    · exact returns_error _
    · exact returns_ok _
  have dated (license : License) : Returns (if asDate license.start ≤ today ∧
      today < asDate license.end_ then .ok license
      else .error (.error ("license is not valid at " ++ lib.formatDay today))) := by
    split
    · exact returns_ok license
    · exact returns_error _
  simp [readAndVerifyLicenseFromBase62, found, aesIs, publicIs, returns_bind, returns_wrapped,
    wrapped_eq_ok, parsed, dated,
    returns_readAndVerifyLicense (beq_iff_eq.mp sized)]

end License

namespace Sample

/-- A library that encrypts nothing and signs everything with one byte. -/
def signing (byte : UInt8) : LicenseLib where
  sign _ _ := List.replicate 64 byte
  verify _ _ signature := signature == List.replicate 64 byte
  seal_ _ _ data := data
  open_ _ _ data := .ok data
  marshalJSON _ := .error ""
  unmarshalJSON _ := .error ""
  quote text := text
  formatDay _ := ""

def key : List UInt8 := List.replicate 32 7

def license : License := ⟨1, [112], [], 0, 1⟩

theorem matching (byte : UInt8) : License.Matching (signing byte) key (key ++ key) key :=
  ⟨.inr (.inr rfl), rfl, rfl, fun _ => rfl, fun _ => beq_self_eq_true _, fun _ _ => rfl⟩

end Sample

namespace License

open Sample

theorem issued_license_verifies_iff_one :
    ∃ signed, sign (signing 1) key (key ++ key) (List.replicate 12 0) license = .ok signed ∧
      decodeString (encodeToString signed) = .ok signed ∧
      (decodeString (encodeToString signed) >>= readAndVerifyLicense (signing 1) key key) =
        .ok license :=
  (issued_license_verifies_iff (matching 1) rfl rfl).2.mpr ⟨by decide, by decide⟩

/-- A signature of zeros is lost through base 62, and the rest too short. -/
theorem issued_license_lost :
    ∃ signed, Matching (signing 0) key (key ++ key) key ∧
      sign (signing 0) key (key ++ key) (List.replicate 12 1) license = .ok signed ∧
      decodeString (encodeToString signed) ≠ .ok signed ∧
      (decodeString (encodeToString signed) >>= readAndVerifyLicense (signing 0) key key) =
        .error (.panic "slice bounds out of range") := by
  refine ⟨List.replicate 64 0 ++ (List.replicate 12 1 ++ license.encoded), matching 0,
    by decide, ?_⟩
  rw [decodeString_encodeToString]
  decide

/-- A signature that is not accepted, and a license with all fields. -/
theorem verification_returns_iff_rejected :
    Returns (readAndVerifyLicenseFromBase62 (signing 2) "pg2sqs" 0
        (encodeToString (List.replicate 64 1))) ∧
      Returns (unmarshalLicense (signing 2).unmarshalJSON license.encoded) := by
  obtain ⟨_, _, -, -, whole⟩ := (verification_returns_iff (signing 2)).1 _ List.mem_cons_self
  refine ⟨(whole 0 _).mpr fun data read => ?_,
    ((verification_returns_iff _).2 _).mpr ⟨by decide, fun _ => by decide⟩⟩
  cases (decodeString_encodeToString _).symm.trans read
  exact ⟨by decide, fun accepted => absurd accepted Bool.false_ne_true⟩

/-- One digit is too short for a signature, no data for a version. -/
theorem verification_panics :
    readAndVerifyLicenseFromBase62 (signing 1) "pg2sqs" 0 [49] =
        .error (.panic "slice bounds out of range") ∧
      unmarshalLicense (signing 1).unmarshalJSON [] = .error (.panic "slice bounds out of range") :=
  ⟨rfl, rfl⟩

end License

end PgWalk
