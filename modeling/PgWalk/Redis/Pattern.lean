import PgWalk.Snapshot.Config

/-! The patterns of commands and conditions: texts with placeholders in braces. -/

namespace PgWalk.Redis

open List

def openBrace : Char := '\x7b'

def closeBrace : Char := '\x7d'

def braced (content : List Char) : List Char := openBrace :: content ++ [closeBrace]

inductive Segment
  | literal (text : List Char)
  -- The content of a placeholder, without its braces.
  | placeholder (content : List Char)
deriving DecidableEq

/-- A part as it stands in the pattern. -/
def Segment.text : Segment → List Char
  | .literal text => text
  | .placeholder content => braced content

/-- A literal part, left out when it is empty. -/
def literalSegment : List Char → List Segment
  | [] => []
  | text => [.literal text]

/-- What has been read since a brace that may open a placeholder. -/
def pendingText : Option (List Char) → List Char
  | none => []
  | some content => openBrace :: content

/--
The parts of a pattern, with what has been read of a literal part and behind an opening brace. A
placeholder is the shortest text between braces that is not empty.
-/
def scan (literal : List Char) (pending : Option (List Char)) : List Char → List Segment
  | [] => literalSegment (literal ++ pendingText pending)
  | c :: rest =>
    -- An opening brace makes everything before it literal.
    if c = openBrace then scan (literal ++ pendingText pending) (some []) rest
    else if c = closeBrace then
      match pending with
      | some (first :: content) =>
        literalSegment literal ++ .placeholder (first :: content) :: scan [] none rest
      | _ => scan (literal ++ pendingText pending ++ [c]) none rest
    else
      match pending with
      | some content => scan literal (some (content ++ [c])) rest
      | none => scan (literal ++ [c]) none rest

def segments (pattern : List Char) : List Segment := scan [] none pattern

theorem literalSegment_text (text : List Char) :
    (literalSegment text).flatMap Segment.text = text := by
  cases text <;> simp [literalSegment, Segment.text]

/-- What is scanned accounts for all that was read and all that follows. -/
theorem scan_text (literal : List Char) (pending : Option (List Char)) (pattern : List Char) :
    (scan literal pending pattern).flatMap Segment.text =
      literal ++ pendingText pending ++ pattern := by
  -- A brace ends a placeholder, or it stands for itself.
  induction pattern generalizing literal pending with
  | nil => simp [scan, literalSegment_text]
  | cons c rest ih =>
    simp only [scan]
    by_cases opens : c = openBrace
    · rw [if_pos opens, ih]
      simp [pendingText, opens]
    · rw [if_neg opens]
      by_cases closes : c = closeBrace
      · rw [if_pos closes]
        rcases pending with _ | ⟨_ | ⟨first, content⟩⟩
        · rw [ih]
          simp [pendingText]
        · rw [ih]
          simp [pendingText]
        · rw [flatMap_append, flatMap_cons, literalSegment_text, ih]
          simp [pendingText, Segment.text, braced, closes]
      · rw [if_neg closes]
        cases pending with
        | none | some content =>
          rw [ih]
          simp [pendingText]

theorem segments_text (pattern : List Char) :
    (segments pattern).flatMap Segment.text = pattern := by
  simpa [segments, pendingText] using scan_text [] none pattern

/-- A text that may stand between the braces of a placeholder. -/
def Plain (content : List Char) : Prop := openBrace ∉ content ∧ closeBrace ∉ content

theorem plain_cons_iff {c : Char} {rest : List Char} :
    Plain (c :: rest) ↔ (c ≠ openBrace ∧ c ≠ closeBrace) ∧ Plain rest := by
  simp only [Plain, mem_cons, not_or, ne_comm]
  tauto

variable {content pattern : List Char}

/-- There is no brace in the content of a placeholder that is found. -/
theorem plain_of_mem_scan {literal : List Char} {pending : Option (List Char)}
    (clean : ∀ read ∈ pending, Plain read)
    (found : .placeholder content ∈ scan literal pending pattern) : Plain content := by
  -- A character that joins the content is no brace.
  have none_literal : ∀ text, .placeholder content ∉ literalSegment text := by
    intro text member
    cases text <;> simp [literalSegment] at member
  induction pattern generalizing literal pending with
  | nil => exact absurd found (none_literal _)
  | cons c rest ih =>
    simp only [scan] at found
    by_cases opens : c = openBrace
    · rw [if_pos opens] at found
      exact ih (by simp [Plain]) found
    · rw [if_neg opens] at found
      by_cases closes : c = closeBrace
      · rw [if_pos closes] at found
        rcases pending with _ | ⟨_ | ⟨first, read⟩⟩
        · exact ih (by simp) found
        · exact ih (by simp) found
        · rcases mem_append.mp found with inLiteral | behind
          · exact absurd inLiteral (none_literal _)
          · rcases mem_cons.mp behind with here | later
            · cases here
              exact clean _ rfl
            · exact ih (by simp) later
      · rw [if_neg closes] at found
        cases pending with
        | none => exact ih (by simp) found
        | some read =>
          refine ih ?_ found
          rintro _ ⟨⟩
          have before := clean read rfl
          simp only [Plain, mem_append, mem_singleton, not_or]
          exact ⟨⟨before.1, fun same => opens same.symm⟩, before.2, fun same => closes same.symm⟩

theorem plain_of_mem_segments (found : .placeholder content ∈ segments pattern) : Plain content :=
  plain_of_mem_scan (by simp) found

variable (text start : String)

def hasPrefix : Bool := start.toList.isPrefixOf text.toList

def hasSuffix (text ending : String) : Bool := ending.toList.isSuffixOf text.toList

def trimPrefix : String :=
  if hasPrefix text start then String.ofList (text.toList.drop start.toList.length) else text

/-- What stands between the first characters of a text and its last one. -/
def between : String :=
  String.ofList ((text.toList.drop start.toList.length).dropLast)

def splitCommas (text : String) : List String :=
  (text.toList.splitOn ',').map String.ofList

/-- A text with every pair of a character replaced by a mark. -/
def replacePair (char mark : Char) : List Char → List Char
  | [] => []
  | [c] => [c]
  | c :: d :: rest =>
    if c = char ∧ d = char then mark :: replacePair char mark rest
    else c :: replacePair char mark (d :: rest)

/-- A text with the marks replaced by the braces they stand for. -/
def unmark (text : List Char) : String :=
  String.ofList (text.map fun c =>
    if c = '\x00' then openBrace else if c = '\x01' then closeBrace else c)

end PgWalk.Redis
