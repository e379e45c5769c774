import PgWalk.Lib.Digits
import PgWalk.Wal.OrderedMap

/-! The binary form of a license, written field by field into a buffer and read back from it. -/

namespace PgWalk

open Digits

open Digits (fixed ofBytes)

/-- A license, whose texts are the bytes they are made of. -/
structure License where
  version : UInt16
  product : List UInt8
  customer : List UInt8
  start : UInt64
  end_ : UInt64
deriving DecidableEq

namespace License

def binaryVersion : UInt16 := 1

def jsonVersion : UInt16 := 2

/-- A buffer filled from its front: what is behind the window, and the window. -/
structure Window where
  done : List UInt8
  lic : List UInt8

namespace Window

variable (w : Window)

/-- Write to the front of the window, which must have room for it. -/
def put (bytes : List UInt8) : Except Fault Window :=
  if w.lic.length < bytes.length then throw (.panic "index out of range")
  else return { w with lic := bytes ++ w.lic.drop bytes.length }

/-- Write as much to the front of the window as there is room for. -/
def copy (bytes : List UInt8) : Window :=
  { w with lic := bytes.take w.lic.length ++ w.lic.drop bytes.length }

/-- Move the front of the window. -/
def skip (count : Nat) : Except Fault Window :=
  if w.lic.length < count then throw (.panic "slice bounds out of range")
  else return ⟨w.done ++ w.lic.take count, w.lic.drop count⟩

def putUint (width number : Nat) : Except Fault Window := do
  (← w.put (fixed width number)).skip width

end Window

/-- The size of the buffer, which is added up in 32 bits. -/
def totalSize (l : License) : Nat :=
  (2 + 4 + 4 + l.product.length % 2 ^ 32 + 4 + l.customer.length % 2 ^ 32 + 8 + 8) % 2 ^ 32

def marshalBinary (l : License) : Except Fault (List UInt8) := do
  let prodLen := l.product.length % 2 ^ 32
  let custLen := l.customer.length % 2 ^ 32
  let lic : Window := ⟨[], List.replicate l.totalSize 0⟩
  let lic ← lic.putUint 2 l.version.toNat
  let lic ← lic.putUint 4 l.totalSize
  let lic ← lic.putUint 4 prodLen
  let lic ← (lic.copy l.product).skip prodLen
  let lic ← lic.putUint 4 custLen
  let lic ← (lic.copy l.customer).skip custLen
  let lic ← lic.putUint 8 l.start.toNat
  let lic ← lic.put (fixed 8 l.end_.toNat)
  return lic.done ++ lic.lic

/-- Take bytes off the front of some data, which must have that many. -/
def readBytes (data : List UInt8) (count : Nat) : Except Fault (List UInt8 × List UInt8) :=
  if data.length < count then throw (.panic "slice bounds out of range")
  else return (data.take count, data.drop count)

def unmarshalBinaryLicense (data : List UInt8) : Except Fault License := do
  let (_, data) ← readBytes data 4
  let (prodLen, data) ← readBytes data 4
  let (product, data) ← readBytes data (ofBytes prodLen)
  let (custLen, data) ← readBytes data 4
  let (customer, data) ← readBytes data (ofBytes custLen)
  let (start, data) ← readBytes data 8
  let (end_, _) ← readBytes data 8
  return ⟨binaryVersion, product, customer, .ofNat (ofBytes start), .ofNat (ofBytes end_)⟩

def unmarshalLicense (unmarshalJSON : List UInt8 → Except String License) (data : List UInt8) :
    Except Fault License := do
  let (version, data) ← readBytes data 2
  if ofBytes version = binaryVersion.toNat then unmarshalBinaryLicense data
  else if ofBytes version = jsonVersion.toNat then
    match unmarshalJSON data with
    | .error err => throw (.error err)
    | .ok license => return { license with version := jsonVersion }
  else throw (.error "license version is invalid")

/-- The fields of the binary form in their order. -/
def encoded (l : License) : List UInt8 :=
  fixed 2 l.version.toNat ++ (fixed 4 l.totalSize ++ (fixed 4 l.product.length ++ (l.product ++
    (fixed 4 l.customer.length ++ (l.customer ++ (fixed 8 l.start.toNat ++
      fixed 8 l.end_.toNat))))))

variable {l : License} {data : List UInt8} {unmarshalJSON : List UInt8 → Except String License}

/-- The bytes that the binary form of a license takes. -/
def size (l : License) : Nat := 30 + l.product.length + l.customer.length

/-- Up to 32 bits the size is added up without a carry. -/
theorem totalSize_eq (small : l.size < 2 ^ 32) : l.totalSize = l.size := by
  rw [totalSize, size] at *
  omega

/-- The fields take the bytes that are counted for them. -/
theorem length_encoded (l : License) : l.encoded.length = l.size := by
  simp only [encoded, size, List.length_append, length_fixed]
  omega

section

variable {front : List UInt8} {room : Nat}

/-- A number goes to the front of a window with room for it. -/
theorem Window.putUint_eq {width : Nat} (fits : width ≤ room) (number : Nat) :
    (⟨front, List.replicate room 0⟩ : Window).putUint width number =
      .ok ⟨front ++ fixed width number, List.replicate (room - width) 0⟩ := by
  simp [putUint, put, skip, Nat.not_lt.mpr fits, Bind.bind, Except.bind, Pure.pure, Except.pure]

/-- A text goes to the front of a window with room for all of it. -/
theorem Window.copy_eq {text : List UInt8} (fits : text.length ≤ room) :
    ((⟨front, List.replicate room 0⟩ : Window).copy text).skip text.length =
      .ok ⟨front ++ text, List.replicate (room - text.length) 0⟩ := by
  simp [copy, skip, List.take_of_length_le, fits, Pure.pure, Except.pure]

end

/-- The buffer is filled with the fields in their order. -/
theorem marshalBinary_eq (small : l.size < 2 ^ 32) : l.marshalBinary = .ok l.encoded := by
  -- Every write has room, since the buffer has the size of all.
  have total : l.totalSize = 30 + l.product.length + l.customer.length := totalSize_eq small
  rw [size] at small
  have prod : l.product.length % 2 ^ 32 = l.product.length := by omega
  have cust : l.customer.length % 2 ^ 32 = l.customer.length := by omega
  simp (disch := omega) only [marshalBinary, prod, cust, Window.putUint_eq, Window.copy_eq,
    Bind.bind, Except.bind]
  have rest : l.totalSize - 2 - 4 - 4 - l.product.length - 4 - l.customer.length - 8 = 8 := by omega
  rw [rest]
  simp [Window.put, encoded, Pure.pure, Except.pure]

namespace Window

variable {w next : Window} {bytes : List UInt8} {count number : Nat}

/-- Writing changes no size. -/
theorem length_put (put : w.put bytes = .ok next) :
    (next.done ++ next.lic).length = (w.done ++ w.lic).length := by
  rw [Window.put] at put
  split at put
  · cases put
  · cases put
    simp
    omega

/-- Moving the front changes no size. -/
theorem length_skip (skipped : w.skip count = .ok next) :
    (next.done ++ next.lic).length = (w.done ++ w.lic).length := by
  rw [skip] at skipped
  split at skipped
  · cases skipped
  · cases skipped
    simp

/-- Writing a number changes no size. -/
theorem length_putUint (put : w.putUint count number = .ok next) :
    (next.done ++ next.lic).length = (w.done ++ w.lic).length := by
  obtain ⟨mid, put, skipped⟩ := bind_eq_ok.mp put
  rw [length_skip skipped, length_put put]

/-- Copying changes no size. -/
theorem length_copy (w : Window) (bytes : List UInt8) :
    ((w.copy bytes).done ++ (w.copy bytes).lic).length = (w.done ++ w.lic).length := by
  simp [copy]
  omega

end Window

open Window in
/-- What is written has the size of the buffer, even if that is too small. -/
theorem length_marshalBinary (made : l.marshalBinary = .ok data) : data.length = l.totalSize := by
  -- Every write leaves the buffer as long as it was made.
  simp only [marshalBinary, bind_eq_ok] at made
  obtain ⟨_, version, _, total, _, prod, _, product, _, cust, _, customer, _, start, _, stop,
    made⟩ := made
  cases made
  rw [length_put stop, length_putUint start, length_skip customer, length_copy,
    length_putUint cust, length_skip product, length_copy, length_putUint prod,
    length_putUint total, length_putUint version]
  simp

/-- Bytes are cut off the front where there are as many. -/
theorem readBytes_eq_ok {count : Nat} {read : List UInt8 × List UInt8} :
    readBytes data count = .ok read ↔
      count ≤ data.length ∧ (data.take count, data.drop count) = read := by
  rw [readBytes]
  split <;> simp_all [throw, throwThe, Pure.pure, Except.pure]

/-- What was put in front is cut off again. -/
theorem readBytes_append {front back : List UInt8} {count : Nat} (sized : front.length = count) :
    readBytes (front ++ back) count = .ok (front, back) := by
  simp [readBytes, ← sized, Pure.pure, Except.pure]

/-- A binary license was read from as many bytes as its fields take. -/
theorem size_le_of_unmarshalLicense (read : unmarshalLicense unmarshalJSON data = .ok l)
    (binary : l.version = binaryVersion) : l.size ≤ data.length := by
  -- The two versions are told apart by their number.
  simp only [unmarshalLicense, bind_eq_ok, readBytes_eq_ok] at read
  obtain ⟨_, ⟨enough, rfl⟩, read⟩ := read
  split at read
  · -- Each field is cut off behind the fields before it.
    simp only [unmarshalBinaryLicense, bind_eq_ok, readBytes_eq_ok] at read
    obtain ⟨_, ⟨-, rfl⟩, _, ⟨-, rfl⟩, _, ⟨prod, rfl⟩, _, ⟨-, rfl⟩, _, ⟨cust, rfl⟩, _,
      ⟨start, rfl⟩, _, ⟨stop, rfl⟩, read⟩ := read
    cases read
    simp [size] at *
    omega
  split at read
  · split at read
    · cases read
    · cases read
      cases binary
  · cases read

/-- The fields are read back from where they were written. -/
theorem unmarshalLicense_encoded (binary : l.version = binaryVersion) (small : l.size < 2 ^ 32) :
    unmarshalLicense unmarshalJSON l.encoded = .ok l := by
  rw [size] at small
  have prod : ofBytes (fixed 4 l.product.length) = l.product.length := ofBytes_fixed (by omega)
  have cust : ofBytes (fixed 4 l.customer.length) = l.customer.length := ofBytes_fixed (by omega)
  have start : ofBytes (fixed 8 l.start.toNat) = l.start.toNat := ofBytes_fixed l.start.toNat_lt
  have stop : ofBytes (fixed 8 l.end_.toNat) = l.end_.toNat := ofBytes_fixed l.end_.toNat_lt
  have version : ofBytes (fixed 2 l.version.toNat) = binaryVersion.toNat := by
    rw [binary]
    decide
  have last := @readBytes_append (fixed 8 l.end_.toNat) [] 8 (length_fixed ..)
  rw [List.append_nil] at last
  simp (disch := simp) only [unmarshalLicense, unmarshalBinaryLicense, encoded, readBytes_append,
    Bind.bind, Except.bind, version, prod, cust, last, start, stop, if_true, UInt64.ofNat_toNat]
  rw [← binary]
  rfl

/--
The binary form of a license with a size that fits into 32 bits fills the buffer that is made for
it field by field, holds its own size and is read back as the same license.
-/
theorem license_roundtrip (unmarshalJSON : List UInt8 → Except String License) {l : License}
    (binary : l.version = binaryVersion) (small : l.size < 2 ^ 32) :
    ∃ data, l.marshalBinary = .ok data ∧ data = l.encoded ∧ data.length = l.totalSize ∧
      ofBytes ((data.drop 2).take 4) = data.length ∧
      unmarshalLicense unmarshalJSON data = .ok l := by
  refine ⟨l.encoded, marshalBinary_eq small, rfl, ?_, ?_, unmarshalLicense_encoded binary small⟩
  · rw [length_encoded, totalSize_eq small]
  · have stored : (l.encoded.drop 2).take 4 = fixed 4 l.totalSize := by
      rw [encoded, List.drop_left' (length_fixed ..), List.take_left' (length_fixed ..)]
    rw [stored, length_encoded, totalSize_eq small]
    exact ofBytes_fixed small

/-- A customer with a zero byte and the last of all times. -/
theorem license_roundtrip_negative :
    ∃ data, License.marshalBinary ⟨1, [112], [255, 0], 0, -1⟩ = .ok data ∧ data.length = 33 ∧
      unmarshalLicense (fun _ => .error "") data = .ok ⟨1, [112], [255, 0], 0, -1⟩ := by
  obtain ⟨data, made, -, length, -, back⟩ := license_roundtrip (fun _ => .error "")
    (l := ⟨1, [112], [255, 0], 0, -1⟩) rfl (by decide)
  exact ⟨data, made, length.trans (by decide), back⟩

end License

end PgWalk
