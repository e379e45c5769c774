import PgWalk.Redis.DefaultKey

/-! Templates as the code shows them, and as a single reading from the left does. -/

namespace PgWalk.Redis

open List TemplatePart

variable {V F : Type}

def noBrace (c : Char) : Bool := c ≠ openBrace ∧ c ≠ closeBrace

/-- The placeholder a text behind an opening brace starts with, if any. -/
def placeholderName (text : List Char) : Option (List Char) :=
  let name := text.takeWhile noBrace
  match text.dropWhile noBrace with
  | [] => none
  | c :: _ => if c = closeBrace ∧ name ≠ [] then some name else none

/--
The parts of a pattern in one reading, after some characters that have been read with the last part.
-/
def readOnce : Nat → List Char → List Segment
  | _, [] => []
  | skip + 1, _ :: rest => readOnce skip rest
  | 0, c :: rest =>
    if (c = openBrace ∨ c = closeBrace) ∧ rest.head? = some c then .literal [c] :: readOnce 1 rest
    else if c = openBrace then
      match placeholderName rest with
      | some name => .placeholder name :: readOnce (name.length + 1) rest
      | none => .literal [c] :: readOnce 0 rest
    else .literal [c] :: readOnce 0 rest

/-- The text that the parts of a reading stand for in a row. -/
def renderRead (lib : RedisLib V F) (entry : WriteEntry V) (xid : Nat) :
    List Segment → Except Fault String
  | [] => .ok ""
  | .literal text :: rest => joined (.ok (String.ofList text)) (renderRead lib entry xid rest)
  | .placeholder content :: rest =>
    joined ((placeholderTemplatePart content).render lib entry entry.tuple xid)
      (renderRead lib entry xid rest)

/-- The next brace that is not one of a pair, pairing from the left. -/
def nextSingle : List Char → Option Char
  | [] => none
  | [c] => if noBrace c then none else some c
  | c :: d :: rest =>
    if noBrace c then nextSingle (d :: rest)
    else if c = d then nextSingle rest
    else some c

/-- A brace stands at the start of a text and once more behind itself. -/
def startsDoubled : List Char → Bool
  | c :: d :: _ => !noBrace c && c = d
  | _ => false

/--
Whether rewriting doubled braces first makes no difference for a pattern, after some characters.
-/
def readsOnce : Nat → List Char → Bool
  | _, [] => true
  | skip + 1, _ :: rest => readsOnce skip rest
  | 0, c :: rest =>
    if (c = openBrace ∨ c = closeBrace) ∧ rest.head? = some c then readsOnce 1 rest
    else if c = openBrace then
      match placeholderName rest with
      | some name =>
        (rest.drop (name.length + 1)).head? ≠ some closeBrace && readsOnce (name.length + 1) rest
      | none =>
        let later := rest.dropWhile noBrace
        !(startsDoubled later && nextSingle later = some closeBrace) && readsOnce 0 rest
    else c ≠ '\x00' && c ≠ '\x01' && readsOnce 0 rest

theorem readOnce_skip (skip : Nat) (text : List Char) :
    readOnce skip text = readOnce 0 (text.drop skip) := by
  induction skip generalizing text with
  | zero => rfl
  | succ skip ih => cases text <;> simp [readOnce, ih]

theorem readsOnce_skip (skip : Nat) (text : List Char) :
    readsOnce skip text = readsOnce 0 (text.drop skip) := by
  induction skip generalizing text with
  | zero => rfl
  | succ skip ih => cases text <;> simp [readsOnce, ih]

variable {c : Char} {name rest text : List Char}

theorem Plain.noBrace (plain : Plain text) (member : c ∈ text) : noBrace c = true := by
  rw [Redis.noBrace, decide_eq_true_eq]
  exact ⟨fun same => plain.1 (same ▸ member), fun same => plain.2 (same ▸ member)⟩

theorem plain_takeWhile (text : List Char) : Plain (text.takeWhile noBrace) := by
  have free := all_eq_true.mp (all_takeWhile (p := noBrace) (l := text))
  constructor
  · exact fun member => absurd (free _ member) (by decide)
  · exact fun member => absurd (free _ member) (by decide)

/-- A placeholder is a name, not empty, up to a closing brace. -/
theorem placeholderName_eq_some : placeholderName text = some name ↔
      name ≠ [] ∧ Plain name ∧ ∃ back, text = name ++ closeBrace :: back := by
  have cut : text.takeWhile noBrace ++ text.dropWhile noBrace = text := takeWhile_append_dropWhile
  constructor
  · intro found
    unfold placeholderName at found
    simp only at found
    split at found
    · cases found
    · rename_i c back behind
      split at found
      · rename_i closes
        cases found
        refine ⟨closes.2, plain_takeWhile text, back, ?_⟩
        rw [← closes.1, ← behind, cut]
      · cases found
  · rintro ⟨some_name, plain, back, rfl⟩
    have free : ∀ c ∈ name, noBrace c = true := fun _ => plain.noBrace
    have taken : (name ++ closeBrace :: back).takeWhile noBrace = name := by
      rw [takeWhile_append_of_pos free, takeWhile_cons_of_neg (by decide),
        append_nil]
    have dropped : (name ++ closeBrace :: back).dropWhile noBrace = closeBrace :: back := by
      rw [dropWhile_append_of_pos free, dropWhile_cons_of_neg (by decide)]
    simp [placeholderName, taken, dropped, some_name]

variable {char : Char}

theorem replacePair_cons (mark : Char) (apart : c ≠ char ∨ rest.head? ≠ some char) :
    replacePair char mark (c :: rest) = c :: replacePair char mark rest := by
  cases rest with
  | nil => rfl
  | cons d later =>
    have none : ¬ (c = char ∧ d = char) := by
      rintro ⟨rfl, rfl⟩
      rcases apart with differs | differs
      · exact differs rfl
      · exact differs rfl
    rw [replacePair, if_neg none]

theorem head_replacePair {mark : Char} {first : Char}
    (starts : (replacePair char mark text).head? = some first) :
    first = mark ∨ text.head? = some first := by
  match text with
  | [] => cases starts
  | [c] => exact .inr starts
  | c :: d :: rest =>
    rw [replacePair] at starts
    split at starts
    · cases starts
      exact .inl rfl
    · exact .inr starts

theorem marked_openPair (rest : List Char) :
    marked (openBrace :: openBrace :: rest) = '\x00' :: marked rest := by
  unfold marked
  rw [replacePair, if_pos ⟨rfl, rfl⟩, replacePair_cons _ (.inl (by decide))]

theorem marked_closePair (rest : List Char) :
    marked (closeBrace :: closeBrace :: rest) = '\x01' :: marked rest := by
  have kept : replacePair openBrace '\x00' (closeBrace :: closeBrace :: rest) =
      closeBrace :: closeBrace :: replacePair openBrace '\x00' rest := by
    rw [replacePair_cons _ (.inl (by decide)), replacePair_cons _ (.inl (by decide))]
  rw [marked, kept, replacePair, if_pos ⟨rfl, rfl⟩, marked]

/-- A single character is not marked. -/
theorem marked_single (single : noBrace c = true ∨ rest.head? ≠ some c) :
    marked (c :: rest) = c :: marked rest := by
  -- Marking opening braces puts no closing one in front.
  unfold marked
  have opens : c ≠ openBrace ∨ rest.head? ≠ some openBrace := by
    by_cases same : c = openBrace
    · subst same
      exact .inr (single.resolve_left (by decide))
    · exact .inl same
  have closes : c ≠ closeBrace ∨ (replacePair openBrace '\x00' rest).head? ≠ some closeBrace := by
    by_cases same : c = closeBrace
    · subst same
      refine .inr fun starts => ?_
      rcases head_replacePair starts with mark | own
      · exact absurd mark (by decide)
      · exact single.resolve_left (by decide) own
    · exact .inl same
  rw [replacePair_cons _ opens, replacePair_cons _ closes]

/-- A text is doubled braces, single braces and other characters. -/
theorem brace_induction {motive : List Char → Prop} (nil : motive [])
    (pair : ∀ c rest, noBrace c = false → motive rest → motive (c :: c :: rest))
    (char : ∀ c rest, noBrace c = true → motive rest → motive (c :: rest))
    (single : ∀ c rest, noBrace c = false → rest.head? ≠ some c → motive rest →
      motive (c :: rest)) (text : List Char) : motive text := by
  match text with
  | [] => exact nil
  | c :: rest =>
    by_cases free : noBrace c = true
    · exact char c rest free (brace_induction nil pair char single rest)
    · have brace : noBrace c = false := by simpa using free
      match rest with
      | [] => exact single c [] brace (by simp) nil
      | d :: later =>
        by_cases same : d = c
        · subst same
          exact pair d later brace (brace_induction nil pair char single later)
        · refine single c (d :: later) brace ?_
            (brace_induction nil pair char single (d :: later))
          simpa using same
termination_by text.length

theorem brace_cases (brace : noBrace c = false) : c = openBrace ∨ c = closeBrace := by
  by_contra neither
  have free : noBrace c = true := by
    simp only [noBrace, decide_eq_true_eq]
    exact not_or.mp neither
  rw [free] at brace
  cases brace

theorem not_doubled (single : noBrace c = true ∨ rest.head? ≠ some c) :
    ¬ ((c = openBrace ∨ c = closeBrace) ∧ rest.head? = some c) := by
  rintro ⟨brace, doubled⟩
  rcases single with free | alone
  · rcases brace with rfl | rfl
    · exact absurd free (by decide)
    · exact absurd free (by decide)
  · exact alone doubled

theorem head_name (some_name : name ≠ []) (plain : Plain name) (back : List Char) :
    (name ++ back).head? ≠ some openBrace := by
  obtain ⟨first, others, rfl⟩ := exists_cons_of_ne_nil some_name
  rintro ⟨⟩
  exact plain.1 mem_cons_self

theorem nextSingle_pair (brace : noBrace c = false) (rest : List Char) :
    nextSingle (c :: c :: rest) = nextSingle rest := by
  simp [nextSingle, brace]

theorem nextSingle_char (free : noBrace c = true) (rest : List Char) :
    nextSingle (c :: rest) = nextSingle rest := by
  cases rest <;> simp [nextSingle, free]

theorem nextSingle_single (brace : noBrace c = false) (single : rest.head? ≠ some c) :
    nextSingle (c :: rest) = some c := by
  cases rest with
  | nil => simp [nextSingle, brace]
  | cons d later =>
    have differs : c ≠ d := fun same => single (by simp [same])
    simp [nextSingle, brace, differs]

section Shown

variable (lib : RedisLib V F) (entry : WriteEntry V) (xid : Nat)

/-- The text that a template stands for in a row, by the code. -/
def shown (pattern : List Char) : Except Fault String :=
  renderSegments lib entry entry.tuple xid (segments (marked pattern))

/-- The text that a template stands for in a row, in one reading. -/
def readText (pattern : List Char) : Except Fault String :=
  renderRead lib entry xid (readOnce 0 pattern)

/-- What is shown behind an opening brace, while no brace has closed it. -/
def shownBehind (content pattern : List Char) : Except Fault String :=
  renderSegments lib entry entry.tuple xid (scan [] (some content) (marked pattern))

variable {content name pattern rest : List Char} {c : Char}

theorem shown_char (free : noBrace c = true) (marks : marked pattern = c :: marked rest) :
    shown lib entry xid pattern = joined (.ok (unmark [c])) (shown lib entry xid rest) := by
  have plain : c ≠ openBrace ∧ c ≠ closeBrace := by simpa [noBrace] using free
  unfold shown segments
  rw [marks, ← renderSegments_scan]
  simp [scan, plain]

theorem shown_close (single : rest.head? ≠ some closeBrace) :
    shown lib entry xid (closeBrace :: rest) = joined (.ok "\x7d") (shown lib entry xid rest) := by
  have same : unmark [closeBrace] = "\x7d" := by decide
  unfold shown segments
  rw [marked_single (.inr single), ← same, ← renderSegments_scan]
  rfl

theorem shown_open (single : rest.head? ≠ some openBrace) :
    shown lib entry xid (openBrace :: rest) = shownBehind lib entry xid [] rest := by
  unfold shown shownBehind segments
  rw [marked_single (.inr single)]
  rfl

theorem shownBehind_char (free : noBrace c = true) (marks : marked pattern = c :: marked rest) :
    shownBehind lib entry xid content pattern =
      shownBehind lib entry xid (content ++ [c]) rest := by
  have plain : c ≠ openBrace ∧ c ≠ closeBrace := by simpa [noBrace] using free
  unfold shownBehind
  rw [marks]
  simp [scan, plain]

theorem shownBehind_close (some_content : content ≠ []) (single : rest.head? ≠ some closeBrace) :
    shownBehind lib entry xid content (closeBrace :: rest) =
      joined ((placeholderTemplatePart content).render lib entry entry.tuple xid)
        (shown lib entry xid rest) := by
  obtain ⟨first, others, rfl⟩ := exists_cons_of_ne_nil some_content
  unfold shownBehind shown segments
  rw [marked_single (.inr single)]
  rfl

theorem shownBehind_open (single : rest.head? ≠ some openBrace) :
    shownBehind lib entry xid content (openBrace :: rest) =
      joined (.ok (unmark (openBrace :: content))) (shown lib entry xid (openBrace :: rest)) := by
  unfold shownBehind shown segments
  rw [marked_single (.inr single), ← renderSegments_scan]
  simp [scan, pendingText]

theorem shown_pair (brace : noBrace c = false) (rest : List Char) :
    shown lib entry xid (c :: c :: rest) =
      joined (.ok (String.ofList [c])) (shown lib entry xid rest) := by
  rcases brace_cases brace with rfl | rfl
  · have same : unmark ['\x00'] = String.ofList [openBrace] := by decide
    rw [← same]
    exact shown_char lib entry xid (by decide) (marked_openPair rest)
  · have same : unmark ['\x01'] = String.ofList [closeBrace] := by decide
    rw [← same]
    exact shown_char lib entry xid (by decide) (marked_closePair rest)

/-- An opening brace that no single brace closes is joined. -/
theorem shownBehind_unclosed (unclosed : nextSingle pattern ≠ some closeBrace)
    (content : List Char) : shownBehind lib entry xid content pattern =
      joined (.ok (unmark (openBrace :: content))) (shown lib entry xid pattern) := by
  -- Doubled braces and others join the content, a single one ends it.
  have longer : ∀ {c pattern rest}, noBrace c = true → marked pattern = c :: marked rest →
      (∀ content, shownBehind lib entry xid content rest =
        joined (.ok (unmark (openBrace :: content))) (shown lib entry xid rest)) →
      ∀ content, shownBehind lib entry xid content pattern =
        joined (.ok (unmark (openBrace :: content))) (shown lib entry xid pattern) := by
    intro c pattern rest free marks later content
    have split : openBrace :: (content ++ [c]) = (openBrace :: content) ++ [c] := rfl
    rw [shownBehind_char lib entry xid free marks, later, shown_char lib entry xid free marks,
      ← joined_assoc, joined_ok, ← unmark_append, split]
  induction pattern using brace_induction generalizing content with
  | nil =>
    show renderSegments lib entry entry.tuple xid (literalSegment (openBrace :: content)) =
      joined _ (.ok "")
    rw [renderSegments_literal, joined_ok_empty]
  | pair c rest brace ih =>
    rcases brace_cases brace with rfl | rfl
    · exact longer (by decide) (marked_openPair rest) (ih unclosed) content
    · exact longer (by decide) (marked_closePair rest) (ih unclosed) content
  | char c rest free ih =>
    rw [nextSingle_char free] at unclosed
    exact longer free (marked_single (.inl free)) (ih unclosed) content
  | single c rest brace alone ih =>
    rw [nextSingle_single brace alone] at unclosed
    rcases brace_cases brace with rfl | rfl
    · exact shownBehind_open lib entry xid alone
    · exact absurd rfl unclosed

theorem shownBehind_plain (plain : Plain name) (content rest : List Char) :
    shownBehind lib entry xid content (name ++ rest) =
      shownBehind lib entry xid (content ++ name) rest := by
  induction name generalizing content with
  | nil => rw [nil_append, append_nil]
  | cons c later ih =>
    have free := plain.noBrace mem_cons_self
    rw [cons_append, shownBehind_char lib entry xid free (marked_single (.inl free)),
      ih (plain_cons_iff.mp plain).2, append_assoc, singleton_append]

theorem shown_open_unclosed (single : rest.head? ≠ some openBrace)
    (unclosed : nextSingle rest ≠ some closeBrace) : shown lib entry xid (openBrace :: rest) =
      joined (.ok (String.ofList [openBrace])) (shown lib entry xid rest) := by
  have same : unmark [openBrace] = String.ofList [openBrace] := by decide
  rw [shown_open lib entry xid single, shownBehind_unclosed lib entry xid unclosed, same]

theorem shown_open_empty (single : rest.head? ≠ some closeBrace) :
    shown lib entry xid (openBrace :: closeBrace :: rest) =
      joined (.ok (String.ofList [openBrace])) (shown lib entry xid (closeBrace :: rest)) := by
  have opens : (closeBrace :: rest).head? ≠ some openBrace := by
    rw [head?_cons]
    decide
  have both : unmark [openBrace, closeBrace] = String.ofList [openBrace] ++ "\x7d" := by decide
  rw [shown_open lib entry xid opens, shown_close lib entry xid single, ← joined_assoc, joined_ok,
    ← both]
  unfold shown shownBehind segments
  rw [marked_single (.inr single), ← renderSegments_scan]
  rfl

variable {back : List Char}

theorem shown_placeholder (some_name : name ≠ []) (plain : Plain name)
    (single : back.head? ≠ some closeBrace) :
    shown lib entry xid (openBrace :: (name ++ closeBrace :: back)) =
      joined ((placeholderTemplatePart name).render lib entry entry.tuple xid)
        (shown lib entry xid back) := by
  have opens := head_name some_name plain (closeBrace :: back)
  rw [shown_open lib entry xid opens, shownBehind_plain lib entry xid plain, nil_append,
    shownBehind_close lib entry xid some_name single]

theorem readText_pair (brace : noBrace c = false) (rest : List Char) :
    readText lib entry xid (c :: c :: rest) =
      joined (.ok (String.ofList [c])) (readText lib entry xid rest) := by
  unfold readText
  rw [readOnce, if_pos ⟨brace_cases brace, rfl⟩, readOnce_skip]
  rfl

theorem readText_char (single : noBrace c = true ∨ rest.head? ≠ some c)
    (nameless : c = openBrace → placeholderName rest = none) : readText lib entry xid (c :: rest) =
      joined (.ok (String.ofList [c])) (readText lib entry xid rest) := by
  unfold readText
  rw [readOnce, if_neg (not_doubled single)]
  split
  · rename_i opens
    rw [nameless opens]
    rfl
  · rfl

theorem readText_placeholder (some_name : name ≠ []) (plain : Plain name) :
    readText lib entry xid (openBrace :: (name ++ closeBrace :: back)) =
      joined ((placeholderTemplatePart name).render lib entry entry.tuple xid)
        (readText lib entry xid back) := by
  have found := placeholderName_eq_some.mpr ⟨some_name, plain, back, rfl⟩
  have apart := not_doubled (.inr (head_name some_name plain (closeBrace :: back)))
  unfold readText
  rw [readOnce, if_neg apart, if_pos rfl, found]
  simp only [renderRead]
  rw [readOnce_skip]
  simp

end Shown

/-- The part closed as a placeholder in every row, and what follows. -/
def ClosedBy (V F : Type) (pattern more back : List Char) : Prop :=
  ∀ (lib : RedisLib V F) (entry : WriteEntry V) (xid : Nat) (content : List Char), content ≠ [] →
    shownBehind lib entry xid content pattern =
      joined ((placeholderTemplatePart (content ++ more)).render lib entry entry.tuple xid)
        (shown lib entry xid back)

/-- An opening brace that a single brace closes is a placeholder. -/
theorem exists_closedBy {pattern : List Char} (closed : nextSingle pattern = some closeBrace) :
    ∃ more back, ClosedBy V F pattern more back := by
  -- Doubled braces and other characters become a part of the name.
  have longer : ∀ {c pattern rest}, noBrace c = true → marked pattern = c :: marked rest →
      (∃ more back, ClosedBy V F rest more back) →
      ∃ more back, ClosedBy V F pattern more back := by
    rintro c pattern rest free marks ⟨more, back, later⟩
    refine ⟨c :: more, back, fun lib entry xid content _ => ?_⟩
    rw [shownBehind_char lib entry xid free marks, later _ _ _ _ (by simp), append_assoc,
      singleton_append]
  induction pattern using brace_induction with
  | nil => cases closed
  | pair c rest brace ih =>
    rcases brace_cases brace with rfl | rfl
    · exact longer (by decide) (marked_openPair rest) (ih closed)
    · exact longer (by decide) (marked_closePair rest) (ih closed)
  | char c rest free ih =>
    rw [nextSingle_char free] at closed
    exact longer free (marked_single (.inl free)) (ih closed)
  | single c rest brace alone ih =>
    rw [nextSingle_single brace alone] at closed
    cases closed
    refine ⟨[], rest, fun lib entry xid content some_content => ?_⟩
    rw [append_nil]
    exact shownBehind_close lib entry xid some_content alone

inductive Reading : List Char → Prop
  | nil : Reading []
  | pair (c : Char) (rest : List Char) (brace : noBrace c = false) : Reading (c :: c :: rest)
  | char (c : Char) (rest : List Char) (other : c ≠ openBrace)
    (single : noBrace c = true ∨ rest.head? ≠ some c) : Reading (c :: rest)
  | placeholder (name back : List Char) (some_name : name ≠ []) (plain : Plain name) :
    Reading (openBrace :: (name ++ closeBrace :: back))
  -- An opening brace that starts no placeholder.
  | opened (rest : List Char) (single : rest.head? ≠ some openBrace)
    (nameless : placeholderName rest = none) : Reading (openBrace :: rest)

/-- Every pattern can be read part by part. -/
theorem reading (pattern : List Char) : Reading pattern := by
  cases pattern with
  | nil => exact .nil
  | cons c rest =>
    by_cases free : noBrace c = true
    · refine .char c rest ?_ (.inl free)
      rintro rfl
      exact absurd free (by decide)
    · have brace : noBrace c = false := by simpa using free
      by_cases doubled : rest.head? = some c
      · obtain ⟨later, rfl⟩ := head?_eq_some_iff.mp doubled
        exact .pair c later brace
      · rcases brace_cases brace with rfl | rfl
        · cases found : placeholderName rest with
          | none => exact .opened rest doubled found
          | some name =>
            obtain ⟨some_name, plain, back, rfl⟩ := placeholderName_eq_some.mp found
            exact .placeholder name back some_name plain
        · exact .char closeBrace rest (by decide) (.inr doubled)

theorem readsOnce_pair (brace : noBrace c = false) (rest : List Char) :
    readsOnce 0 (c :: c :: rest) = readsOnce 0 rest := by
  rw [readsOnce, if_pos ⟨brace_cases brace, rfl⟩, readsOnce_skip]
  rfl

theorem readsOnce_char (other : c ≠ openBrace) (single : noBrace c = true ∨ rest.head? ≠ some c) :
    readsOnce 0 (c :: rest) = (c ≠ '\x00' && c ≠ '\x01' && readsOnce 0 rest) := by
  rw [readsOnce, if_neg (not_doubled single), if_neg other]

theorem readsOnce_placeholder (some_name : name ≠ []) (plain : Plain name) (back : List Char) :
    readsOnce 0 (openBrace :: (name ++ closeBrace :: back)) =
      (back.head? ≠ some closeBrace && readsOnce 0 back) := by
  have found := placeholderName_eq_some.mpr ⟨some_name, plain, back, rfl⟩
  have apart := not_doubled (.inr (head_name some_name plain (closeBrace :: back)))
  have behind : (name ++ closeBrace :: back).drop (name.length + 1) = back := by simp
  rw [readsOnce, if_neg apart, if_pos rfl, found]
  simp only
  rw [readsOnce_skip, behind]

theorem readsOnce_opened (single : rest.head? ≠ some openBrace)
    (nameless : placeholderName rest = none) : readsOnce 0 (openBrace :: rest) =
      (!(startsDoubled (rest.dropWhile noBrace) &&
          nextSingle (rest.dropWhile noBrace) = some closeBrace) && readsOnce 0 rest) := by
  rw [readsOnce, if_neg (not_doubled (.inr single)), if_pos rfl, nameless]

theorem nextSingle_dropWhile (text : List Char) :
    nextSingle (text.dropWhile noBrace) = nextSingle text := by
  induction text with
  | nil => rfl
  | cons c rest ih =>
    by_cases free : noBrace c = true
    · rw [dropWhile_cons_of_pos free, ih, nextSingle_char free]
    · rw [dropWhile_cons_of_neg free]

/-- The next single brace stands behind plain text. -/
theorem dropWhile_of_nextSingle (found : nextSingle (text.dropWhile noBrace) = some c)
    (single : startsDoubled (text.dropWhile noBrace) = false) :
    ∃ rest, text.dropWhile noBrace = c :: rest ∧ rest.head? ≠ some c := by
  cases behind : text.dropWhile noBrace with
  | nil =>
    rw [behind] at found
    cases found
  | cons first rest =>
    have brace : noBrace first = false := by
      have stops := head?_dropWhile_not noBrace text
      rw [behind] at stops
      simpa using stops
    have alone : rest.head? ≠ some first := by
      intro doubled
      obtain ⟨later, rfl⟩ := head?_eq_some_iff.mp doubled
      rw [behind] at single
      simp [startsDoubled, brace] at single
    rw [behind, nextSingle_single brace alone] at found
    cases found
    exact ⟨rest, rfl, alone⟩

section Same

variable (lib : RedisLib V F) (entry : WriteEntry V) (xid : Nat)

/-- An opening brace that starts no placeholder is literal. -/
theorem shown_opened {rest : List Char} (single : rest.head? ≠ some openBrace)
    (nameless : placeholderName rest = none)
    (open_ : ¬ (startsDoubled (rest.dropWhile noBrace) = true ∧
      nextSingle (rest.dropWhile noBrace) = some closeBrace)) :
    shown lib entry xid (openBrace :: rest) =
      joined (.ok (String.ofList [openBrace])) (shown lib entry xid rest) := by
  by_cases closed : nextSingle (rest.dropWhile noBrace) = some closeBrace
  · -- The closing brace follows at once, since what it closes would have a name otherwise.
    have notDoubled : startsDoubled (rest.dropWhile noBrace) = false := by
      rw [Bool.eq_false_iff]
      exact fun doubled => open_ ⟨doubled, closed⟩
    obtain ⟨back, behind, alone⟩ := dropWhile_of_nextSingle closed notDoubled
    have cut : rest.takeWhile noBrace ++ rest.dropWhile noBrace = rest := takeWhile_append_dropWhile
    have empty : rest.takeWhile noBrace = [] := by
      by_contra some_name
      simp [placeholderName, behind, some_name] at nameless
    rw [empty, behind, nil_append] at cut
    rw [← cut]
    exact shown_open_empty lib entry xid alone
  · rw [nextSingle_dropWhile] at closed
    exact shown_open_unclosed lib entry xid single closed

theorem shown_single {c : Char} {rest : List Char} (other : c ≠ openBrace)
    (single : noBrace c = true ∨ rest.head? ≠ some c) :
    shown lib entry xid (c :: rest) = joined (.ok (unmark [c])) (shown lib entry xid rest) := by
  by_cases free : noBrace c = true
  · exact shown_char lib entry xid free (marked_single (.inl free))
  · have brace : noBrace c = false := by simpa using free
    rcases brace_cases brace with rfl | rfl
    · exact absurd rfl other
    · have same : unmark [closeBrace] = "\x7d" := by decide
      exact shown_close lib entry xid (single.resolve_left free)

theorem pair_shorter (c : Char) (rest : List Char) : rest.length < (c :: c :: rest).length := by
  simp only [length_cons]
  omega

theorem placeholder_shorter (name back : List Char) :
    back.length < (openBrace :: (name ++ closeBrace :: back)).length := by
  simp only [length_cons, length_append]
  omega

/-- A pattern that passes the check is shown as it is read. -/
theorem shown_eq_readText {pattern : List Char} (fine : readsOnce 0 pattern = true) :
    shown lib entry xid pattern = readText lib entry xid pattern := by
  -- By the length, following one reading of the pattern.
  induction length : pattern.length using Nat.strong_induction_on generalizing pattern with
  | _ n ih =>
    subst length
    cases reading pattern with
    | nil => rfl
    | pair c rest brace =>
      rw [readsOnce_pair brace] at fine
      rw [shown_pair lib entry xid brace, readText_pair lib entry xid brace,
        ih rest.length (pair_shorter c rest) fine rfl]
    | char c rest other single =>
      rw [readsOnce_char other single] at fine
      simp only [Bool.and_eq_true, decide_eq_true_eq] at fine
      have kept : unmark [c] = String.ofList [c] := by simp [unmark, fine.1.1, fine.1.2]
      rw [shown_single lib entry xid other single,
        readText_char lib entry xid single (fun opens => absurd opens other), kept,
        ih rest.length (by simp) fine.2 rfl]
    | placeholder name back some_name plain =>
      rw [readsOnce_placeholder some_name plain] at fine
      simp only [Bool.and_eq_true, decide_eq_true_eq] at fine
      rw [shown_placeholder lib entry xid some_name plain fine.1,
        readText_placeholder lib entry xid some_name plain,
        ih back.length (placeholder_shorter name back) fine.2 rfl]
    | opened rest single nameless =>
      rw [readsOnce_opened single nameless] at fine
      simp only [Bool.and_eq_true, Bool.not_eq_true', Bool.and_eq_false_iff] at fine
      have open_ : ¬ (startsDoubled (rest.dropWhile noBrace) = true ∧
          nextSingle (rest.dropWhile noBrace) = some closeBrace) := by
        rintro ⟨doubled, closed⟩
        rcases fine.1 with other | other
        · rw [doubled] at other
          cases other
        · simp [closed] at other
      rw [shown_opened lib entry xid single nameless open_,
        readText_char lib entry xid (.inr single) (fun _ => nameless),
        ih rest.length (by simp) fine.2 rfl]

end Same

/-- The column that a part looks up, if it looks one up. -/
def TemplatePart.asksFor : TemplatePart → Option String
  | .old colName => some colName
  | .column colName _ => some colName
  | .literal _ | .table | .schema | .xid | .pk => none

theorem count_dropWhile {drops : Char → Bool} (kept : drops c = false) (text : List Char) :
    (text.dropWhile drops).count c = text.count c := by
  induction text with
  | nil => rfl
  | cons d rest ih =>
    by_cases dropped : drops d = true
    · have differs : d ≠ c := by
        rintro rfl
        rw [kept] at dropped
        cases dropped
      rw [dropWhile_cons_of_pos dropped, ih, count_cons_of_ne differs]
    · rw [dropWhile_cons_of_neg dropped]

theorem count_trimSpace (kept : isSpace c = false) (text : String) :
    (trimSpace text).toList.count c = text.toList.count c := by
  simp [trimSpace, count_dropWhile kept]

variable (content : List Char)

/-- The placeholders for the table, its schema, transaction and key. -/
def reserved : Bool :=
  String.ofList content ∈ ["%table%", "%schema%", "%xid%", "%pk%"]

/-- A placeholder is reserved, old, or a column. -/
theorem placeholderTemplatePart_cases :
    (reserved content = true ∧ placeholderTemplatePart content ∈ [table, .schema, .xid, .pk]) ∨
    (reserved content = false ∧ hasPrefix (trimSpace (String.ofList content)) "old:" = true ∧
      placeholderTemplatePart content =
        .old (trimPrefix (trimSpace (String.ofList content)) "old:")) ∨
    (reserved content = false ∧ hasPrefix (trimSpace (String.ofList content)) "old:" = false ∧
      placeholderTemplatePart content =
        .column (trimSpace (String.ofList content)) (String.ofList (braced content))) := by
  by_cases word : reserved content = true
  · refine .inl ⟨word, ?_⟩
    simp only [reserved, decide_eq_true_eq, mem_cons, not_mem_nil, or_false] at word
    rcases word with same | same | same | same <;> simp [placeholderTemplatePart, same]
  · have none : reserved content = false := by simpa using word
    have other := none
    simp only [reserved, decide_eq_false_iff_not, mem_cons, not_mem_nil, or_false, not_or] at other
    right
    cases old : hasPrefix (trimSpace (String.ofList content)) "old:" with
    | true => exact .inl ⟨none, rfl, by simp [placeholderTemplatePart, other, old]⟩
    | false => exact .inr ⟨none, rfl, by simp [placeholderTemplatePart, other, old]⟩

theorem asksFor_placeholder :
    (placeholderTemplatePart content).asksFor =
      if reserved content then none
      else some (trimPrefix (trimSpace (String.ofList content)) "old:") := by
  rcases placeholderTemplatePart_cases content with
    ⟨word, part⟩ | ⟨word, -, part⟩ | ⟨word, old, part⟩
  · simp only [mem_cons, not_mem_nil, or_false] at part
    rcases part with same | same | same | same <;> simp [word, same, asksFor]
  · simp [word, part, asksFor]
  · simp [word, part, asksFor, trimPrefix, old]

/-- A pattern in which no placeholder is the whole argument. -/
def IsTemplate (pattern : String) : Prop :=
  (∀ form ∈ ["\x7bpairs:*\x7d", "\x7bcolumns:*\x7d", "\x7bjson:*\x7d"], pattern ≠ form) ∧
    ∀ start ∈ ["\x7bpairs:", "\x7bjson:", "\x7bdiff:"], wholeForm pattern start = none

instance (pattern : String) : Decidable (IsTemplate pattern) :=
  inferInstanceAs (Decidable (_ ∧ _))

theorem compileCommand_template {pattern : String} (template : IsTemplate pattern) :
    compileCommand pattern = compileTemplateCommand (marked pattern.toList) := by
  obtain ⟨forms, starts⟩ := template
  simp only [mem_cons, not_mem_nil, or_false, forall_eq_or_imp, forall_eq] at forms starts
  rw [compileCommand, if_neg forms.1, starts.1, if_neg forms.2.1, if_neg forms.2.2, starts.2.1,
    starts.2.2]
  rfl

end PgWalk.Redis
