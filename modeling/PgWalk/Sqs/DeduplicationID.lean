import PgWalk.Lib.Base64
import PgWalk.Sqs.GroupID

/-! Deduplication identifiers: which changes a queue in order of arrival can tell apart. -/

namespace PgWalk.Sqs

open List

variable {V F : Type}

def bytes (text : String) : List UInt8 := text.toByteArray.data.toList

/-- The library encodes the bytes of a text in base 64. -/
def EncodesBase64 (lib : SqsLib V F) : Prop :=
  ∀ text, lib.encodeToString text = String.ofList (Base64.encode (bytes text))

/-- The text that a deduplication identifier is made of. -/
def dedupText (entry : WriteEntry V) (xid : Nat) : String :=
  entry.table.fullName ++ ":" ++ entry.pk ++ ":" ++ toString (opNumber entry.kind) ++ ":" ++
    toString xid

/-- Two entries are the same change of the same row. -/
def SameChange (one other : WriteEntry V) (xid otherXid : Nat) : Prop :=
  one.table.fullName = other.table.fullName ∧ one.pk = other.pk ∧ one.kind = other.kind ∧
    xid = otherXid

theorem bytes_injective : Function.Injective bytes := by
  intro text other same
  have data : text.toByteArray.data = other.toByteArray.data := Array.toList_inj.mp same
  exact String.toByteArray_inj.mp (ByteArray.ext data)

theorem bytes_append (text other : String) : bytes (text ++ other) = bytes text ++ bytes other := by
  rfl

theorem allowed_of_mem_encode {text : List UInt8} {c : Char} (member : c ∈ Base64.encode text) :
    allowed c := by
  have all : Base64.alphabet.all allowed = true := by decide
  rcases Base64.mem_encode member with listed | rfl
  · exact all_eq_true.mp all c listed
  · decide

variable {qc : TableQueueConfig} {α : Type} {separator : α} {one other otherRest rest : List α}

/-- The ID is the encoded text, cut at 128 characters. -/
theorem getDeduplicationID_eq {lib : SqsLib V F} (encodes : EncodesBase64 lib)
    (fifo : qc.fifo = true) (entry : WriteEntry V) (xid : Nat) :
    qc.getDeduplicationID lib entry xid = some (String.ofList
      ((Base64.encode (bytes (dedupText entry xid))).take 128)) := by
  -- The filter takes the blank in front away, and nothing else.
  have text : TableQueueConfig.wellFormAWSID
      (" " ++ String.ofList (Base64.encode (bytes (dedupText entry xid)))) =
      String.ofList ((Base64.encode (bytes (dedupText entry xid))).take 128) := by
    rw [TableQueueConfig.wellFormAWSID, String.toList_append,
      @String.toList_ofList (Base64.encode _)]
    have kept : (Base64.encode (bytes (dedupText entry xid))).filter
        (fun c => decide (33 ≤ c.toNat ∧ c.toNat ≤ 126)) =
        Base64.encode (bytes (dedupText entry xid)) := by
      rw [filter_eq_self]
      intro c member
      exact allowed_of_mem_encode member
    have blank : (" ".toList).filter (fun c => decide (33 ≤ c.toNat ∧ c.toNat ≤ 126)) = [] := by
      decide
    rw [filter_append, kept, blank, nil_append]
  rw [TableQueueConfig.getDeduplicationID, if_neg (by simp [fifo]), ← text, ← encodes]
  rfl

theorem getDeduplicationID_inj {lib : SqsLib V F} (encodes : EncodesBase64 lib)
    (fifo : qc.fifo = true) (one other : WriteEntry V) (xid otherXid : Nat) :
    qc.getDeduplicationID lib one xid = qc.getDeduplicationID lib other otherXid ↔
      (bytes (dedupText one xid)).take 96 = (bytes (dedupText other otherXid)).take 96 := by
  -- Four characters hold three bytes.
  rw [getDeduplicationID_eq encodes fifo, getDeduplicationID_eq encodes fifo, Option.some.injEq,
    String.ofList_inj]
  exact @Base64.take_encode_inj _ _ 32

theorem colon_not_mem_toString (number : Nat) : ':' ∉ (toString number).toList := by
  intro member
  rw [Nat.toString_eq_repr, Nat.repr_eq_ofList_toDigits, String.toList_ofList] at member
  have digit := Nat.isDigit_of_mem_toDigits (by decide) (by decide) member
  exact absurd digit (by decide)

theorem toString_nat_inj {number other : Nat} (same : toString number = toString other) :
    number = other := by
  have digits : ∀ n : Nat, (toString n).toList = Nat.toDigits 10 n := by
    intro n
    rw [Nat.toString_eq_repr, Nat.repr_eq_ofList_toDigits, String.toList_ofList]
  have read := congrArg (fun text => Nat.ofDigitChars 10 text.toList 0) same
  simpa only [digits, Nat.ofDigitChars_toDigits (show 1 < 10 by decide) (le_refl 10)] using read

theorem opNumber_inj {kind other : OpKind} (same : opNumber kind = opNumber other) :
    kind = other := by
  cases kind <;> cases other <;> first | rfl | cases same

theorem cut_first (absent : separator ∉ one) (otherAbsent : separator ∉ other)
    (same : one ++ separator :: rest = other ++ separator :: otherRest) :
    one = other ∧ rest = otherRest := by
  induction one generalizing other with
  | nil =>
    cases other with
    | nil => exact ⟨rfl, (List.cons.inj same).2⟩
    | cons head tail => exact absurd ((List.cons.inj same).1 ▸ mem_cons_self) otherAbsent
  | cons head tail ih =>
    cases other with
    | nil => exact absurd ((List.cons.inj same).1 ▸ mem_cons_self) absent
    | cons otherHead otherTail =>
      obtain ⟨heads, tails⟩ := List.cons.inj same
      obtain ⟨parts, rests⟩ := ih (fun member => absent (.tail _ member))
        (fun member => otherAbsent (.tail _ member)) tails
      exact ⟨by rw [heads, parts], rests⟩

theorem cut_last (absent : separator ∉ rest) (otherAbsent : separator ∉ otherRest)
    (same : one ++ separator :: rest = other ++ separator :: otherRest) :
    one = other ∧ rest = otherRest := by
  have turned := congrArg List.reverse same
  simp only [reverse_append, reverse_cons, append_assoc, singleton_append]
    at turned
  obtain ⟨rests, parts⟩ := cut_first (by simpa using absent) (by simpa using otherAbsent) turned
  exact ⟨reverse_injective parts, reverse_injective rests⟩

theorem toList_dedupText (entry : WriteEntry V) (xid : Nat) :
    (dedupText entry xid).toList = entry.table.fullName.toList ++ ':' :: (entry.pk.toList ++
      ':' :: (toString (opNumber entry.kind)).toList ++ ':' :: (toString xid).toList) := by
  have colon : ":".toList = [':'] := rfl
  simp only [dedupText, String.toList_append, colon, append_assoc, cons_append, nil_append]

/-- The text tells the change, if the names of tables have no colon. -/
theorem dedupText_inj {one other : WriteEntry V} {xid otherXid : Nat}
    (plain : ':' ∉ one.table.fullName.toList) (otherPlain : ':' ∉ other.table.fullName.toList) :
    dedupText one xid = dedupText other otherXid ↔ SameChange one other xid otherXid := by
  -- The table ends at the first colon; numbers follow the last ones.
  constructor
  · intro same
    have chars := congrArg String.toList same
    rw [toList_dedupText, toList_dedupText] at chars
    obtain ⟨tables, behind⟩ := cut_first plain otherPlain chars
    obtain ⟨before, xids⟩ := cut_last (colon_not_mem_toString _) (colon_not_mem_toString _) behind
    obtain ⟨keys, kinds⟩ := cut_last (colon_not_mem_toString _) (colon_not_mem_toString _) before
    exact ⟨String.toList_injective tables, String.toList_injective keys,
      opNumber_inj (toString_nat_inj (String.toList_injective kinds)),
      toString_nat_inj (String.toList_injective xids)⟩
  · rintro ⟨tables, keys, kinds, rfl⟩
    rw [dedupText, dedupText, tables, keys, kinds]

/--
Identifiers tell changes exactly as far as 96 bytes of the texts they are made of: two entries have
different ones for different changes exactly when these bytes differ, as they do in short texts.
-/
theorem deduplicationID_iff {lib : SqsLib V F} (encodes : EncodesBase64 lib)
    {qc : TableQueueConfig} (fifo : qc.fifo = true) {one other : WriteEntry V}
    (plain : ':' ∉ one.table.fullName.toList) (otherPlain : ':' ∉ other.table.fullName.toList)
    (xid otherXid : Nat) :
    (qc.getDeduplicationID lib one xid).isSome ∧
    ((qc.getDeduplicationID lib one xid = qc.getDeduplicationID lib other otherXid ↔
        SameChange one other xid otherXid) ↔
      (SameChange one other xid otherXid ∨
        (bytes (dedupText one xid)).take 96 ≠ (bytes (dedupText other otherXid)).take 96)) ∧
    ((bytes (dedupText one xid)).length ≤ 96 → (bytes (dedupText other otherXid)).length ≤ 96 →
      (qc.getDeduplicationID lib one xid = qc.getDeduplicationID lib other otherXid ↔
        SameChange one other xid otherXid)) := by
  refine ⟨by rw [getDeduplicationID_eq encodes fifo]; rfl, ?_, ?_⟩
  · rw [getDeduplicationID_inj encodes fifo]
    by_cases same : SameChange one other xid otherXid
    · -- The same change has the same text.
      have texts := (dedupText_inj plain otherPlain).mpr same
      simp [same, texts]
    · simp [same]
  · intro short otherShort
    rw [getDeduplicationID_inj encodes fifo, take_of_length_le short,
      take_of_length_le otherShort, bytes_injective.eq_iff]
    exact dedupText_inj plain otherPlain

namespace Sample

def encodingLib : SqsLib (List UInt8) Nat :=
  { lib with encodeToString := fun text => String.ofList (Base64.encode (bytes text)) }

/-- A user with a long key that ends as given. -/
def longKey (ending : String) : WriteEntry (List UInt8) :=
  { row "users" .insert 0 with pk := String.ofList (List.replicate 100 'k') ++ ending }

end Sample

open Sqs.Sample

/-- An insert and a delete of one transaction are told apart. -/
theorem deduplicationID_iff_short :
    (grouping "").getDeduplicationID encodingLib (row "users" .insert 0) 7 ≠
      (grouping "").getDeduplicationID encodingLib (row "users" .delete 0)
        7 := by
  have encodes : EncodesBase64 encodingLib := fun _ => rfl
  have law := (deduplicationID_iff encodes (show (grouping "").fifo = true from rfl)
    (show ':' ∉ (row "users" .insert 0).table.fullName.toList by decide)
    (show ':' ∉ (row "users" .delete 0).table.fullName.toList by decide) 7 7).2.2
    (by decide) (by decide)
  intro same
  exact absurd (law.mp same).2.2.1 (by decide)

/-- Two rows whose long keys differ at the end have one identifier. -/
theorem deduplicationID_collision :
    (longKey "1").pk ≠ (longKey "2").pk ∧
      (grouping "").getDeduplicationID encodingLib (longKey "1") 7 =
        (grouping "").getDeduplicationID encodingLib (longKey "2") 7 := by
  -- The texts have more than 96 bytes before the keys differ.
  have encodes : EncodesBase64 encodingLib := fun _ => rfl
  have shape : ∀ ending, dedupText (longKey ending) 7 =
      ("public.users:" ++ String.ofList (List.replicate 100 'k')) ++ (ending ++ ":0:7") := by
    intro ending
    have front : (longKey ending).table.fullName ++ ":" = "public.users:" := by
      show (makeTableName "public" "users").fullName ++ ":" = "public.users:"
      decide
    have back : ":" ++ toString (opNumber OpKind.insert) ++ ":" ++ toString 7 = ":0:7" := by decide
    rw [dedupText, front, ← back]
    simp only [longKey, row, String.append_assoc]
  have long : 96 ≤ (bytes ("public.users:" ++ String.ofList (List.replicate 100 'k'))).length := by
    decide +kernel
  refine ⟨by decide +kernel, (getDeduplicationID_inj encodes rfl _ _ _ _).mpr ?_⟩
  rw [shape, shape, bytes_append, bytes_append _ ("2" ++ _), take_append_of_le_length long,
    take_append_of_le_length long]

end PgWalk.Sqs
