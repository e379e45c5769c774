import PgWalk.Redis.Template

/-! Which templates are rendered as in a single reading, and a row for each that is not. -/

namespace PgWalk.Redis

open TemplatePart List

variable {V F : Type}

variable {content : List Char}

/-- The column asked for keeps the marks. -/
theorem count_asksFor {colName : String}
    (asked : (placeholderTemplatePart content).asksFor = some colName) :
    colName.toList.count '\x01' = content.count '\x01' := by
  have trimmed : (trimSpace (String.ofList content)).toList.count '\x01' =
      content.count '\x01' := by
    rw [count_trimSpace (by decide), String.toList_ofList]
  rw [asksFor_placeholder] at asked
  split at asked
  · cases asked
  · rw [Option.some.injEq] at asked
    rw [← asked, ← trimmed]
    unfold trimPrefix
    split
    · -- What is cut off has no mark in it.
      rename_i old
      obtain ⟨rest, same⟩ := isPrefixOf_iff_prefix.mp old
      rw [← same, count_append, String.toList_ofList, drop_left]
      simp
    · rfl

theorem asksFor_of_mark {mark : Char} (member : mark ∈ content)
    (marks : mark = '\x00' ∨ mark = '\x01') :
    ∃ colName, (placeholderTemplatePart content).asksFor = some colName := by
  -- None of the four words has a mark in it.
  have other : reserved content = false := by
    rw [Bool.eq_false_iff]
    intro word
    simp only [reserved, decide_eq_true_eq, mem_cons, not_mem_nil, or_false] at word
    have chars : ∀ text : String, String.ofList content = text → mark ∈ text.toList := by
      rintro text rfl
      rwa [String.toList_ofList]
    rcases word with same | same | same | same <;> rcases marks with rfl | rfl <;>
      exact absurd (chars _ same) (by decide)
  rw [asksFor_placeholder, other]
  exact ⟨_, rfl⟩

/-- A row with one column, which is nil, of a table without a name. -/
def nilRow (key : String) : WriteEntry V where
  tuple := .pointer (some ⟨[none], [true], 1, ⟨[key]⟩⟩)
  prevTuple := .pointer (some ⟨[none], [true], 1, ⟨[key]⟩⟩)
  pk := ""
  kind := .insert
  table := ⟨"", "", ""⟩
  offset := 0

theorem get_nilRow (key colName : String) :
    (⟨[none], [true], 1, ⟨[key]⟩⟩ : OrderedMap V).get colName =
      if key = colName then some none else none := by
  by_cases same : key = colName
  · simp [OrderedMap.get, KeyMap.getIndex, KeyMap.indexFrom, same]
  · simp [OrderedMap.get, KeyMap.getIndex, KeyMap.indexFrom, same]

def TemplatePart.inNilRow (key : String) : TemplatePart → String
  | .literal text => text
  | .table | .schema | .pk => ""
  | .xid => "0"
  | .old colName => if key = colName then "<nil>" else ""
  | .column colName verbatim => if key = colName then "<nil>" else verbatim

section Differs

variable (lib : RedisLib V F)

/-- Every part is rendered in a row without values. -/
theorem render_nilRow (key : String) (part : TemplatePart) :
    part.render lib (nilRow key) (nilRow key).tuple 0 = .ok (part.inNilRow key) := by
  cases part with
  | literal text => rfl
  | table => rfl
  | schema => rfl
  | xid => rfl
  | pk => rfl
  | old colName =>
    show (do
      let value ← Except.ok ((⟨[none], [true], 1, ⟨[key]⟩⟩ : OrderedMap V).get colName)
      return (value.map (stringifyForRedis lib)).getD "") = _
    rw [get_nilRow]
    by_cases same : key = colName
    · simp only [same, if_true, inNilRow]
      rfl
    · simp only [same, if_false, inNilRow]
      rfl
  | column colName verbatim =>
    show (do
      let value ← Except.ok ((⟨[none], [true], 1, ⟨[key]⟩⟩ : OrderedMap V).get colName)
      return (value.map (stringifyForRedis lib)).getD verbatim) = _
    rw [get_nilRow]
    by_cases same : key = colName
    · simp only [same, if_true, inNilRow]
      rfl
    · simp only [same, if_false, inNilRow]
      rfl

theorem shown_nilRow (key : String) (pattern : List Char) :
    ∃ text, shown lib (nilRow key) 0 pattern = .ok text := by
  unfold shown
  induction segments (marked pattern) with
  | nil => exact ⟨"", rfl⟩
  | cons part rest ih =>
    obtain ⟨text, same⟩ := ih
    rw [renderSegments, same, render_nilRow]
    exact ⟨_, rfl⟩

theorem readText_nilRow (key : String) (pattern : List Char) :
    ∃ text, readText lib (nilRow key) 0 pattern = .ok text := by
  unfold readText
  induction readOnce 0 pattern with
  | nil => exact ⟨"", rfl⟩
  | cons part rest ih =>
    obtain ⟨text, same⟩ := ih
    cases part with
    | literal own =>
      rw [renderRead, same]
      exact ⟨_, rfl⟩
    | placeholder content =>
      rw [renderRead, same, render_nilRow]
      exact ⟨_, rfl⟩

/-- A result is a text that starts with a given character. -/
def StartsWith (c : Char) (result : Except Fault String) : Prop :=
  ∃ text, result = .ok text ∧ text.toList.head? = some c

variable {c : Char} {first second : Except Fault String} {front : String}
  {name pattern : List Char}

theorem StartsWith.ne {d : Char} (one : StartsWith c first) (other : StartsWith d second)
    (differs : c ≠ d) : first ≠ second := by
  rintro rfl
  obtain ⟨text, same, starts⟩ := one
  obtain ⟨again, equal, begins⟩ := other
  rw [same] at equal
  cases equal
  rw [starts] at begins
  cases begins
  exact differs rfl

theorem startsWith_joined (starts : front.toList.head? = some c) {back : Except Fault String}
    (there : ∃ text, back = .ok text) : StartsWith c (joined (.ok front) back) := by
  obtain ⟨text, rfl⟩ := there
  obtain ⟨rest, same⟩ := head?_eq_some_iff.mp starts
  exact ⟨front ++ text, rfl, by simp [same]⟩

theorem joined_ne (differs : first ≠ second) :
    joined (.ok front) first ≠ joined (.ok front) second := by
  intro same
  apply differs
  cases first <;> cases second <;>
    simp [joined, Bind.bind, Except.bind, Pure.pure, Except.pure] at same ⊢ <;> exact same

/-- A placeholder starts as nil only if it looks the column up. -/
theorem inNilRow_start (key : String) (content : List Char) :
    let text := (placeholderTemplatePart content).inNilRow key
    let asked := (placeholderTemplatePart content).asksFor
    (asked = some key ∧ text.toList.head? = some '<') ∨
      (asked ≠ some key ∧ (text = "" ∨ text.toList.head? = some '0')) ∨
      (asked ≠ some key ∧ asked ≠ none ∧ text.toList.head? = some openBrace) := by
  rcases placeholderTemplatePart_cases content with ⟨word, part⟩ | ⟨word, -, part⟩ | ⟨word, -, part⟩
  · -- The reserved words stand for nothing in this row, but for the number of the transaction.
    simp only [mem_cons, not_mem_nil, or_false] at part
    refine .inr (.inl ?_)
    rcases part with same | same | same | same <;>
      simp [same, asksFor, inNilRow]
  · rw [part]
    generalize trimPrefix (trimSpace (String.ofList content)) "old:" = colName
    by_cases same : key = colName
    · exact .inl (by simp [asksFor, inNilRow, same])
    · exact .inr (.inl (by simp [asksFor, inNilRow, same, Ne.symm same]))
  · rw [part]
    generalize trimSpace (String.ofList content) = colName
    by_cases same : key = colName
    · exact .inl (by simp [asksFor, inNilRow, same])
    · refine .inr (.inr ?_)
      simp [asksFor, inNilRow, same, Ne.symm same, braced]

/-- A placeholder in front of a closing brace, in one reading of the row. -/
theorem readText_start (key : String) (some_name : name ≠ []) (plain : Plain name)
    (back : List Char) (notZero : c ≠ '0') (notClose : c ≠ closeBrace)
    (other : c = '<' ∧ (placeholderTemplatePart name).asksFor ≠ some key ∨
      c = openBrace ∧ ((placeholderTemplatePart name).asksFor = none ∨
        (placeholderTemplatePart name).asksFor = some key)) :
    ∃ d, d ≠ c ∧ StartsWith d (readText lib (nilRow key) 0
      (openBrace :: (name ++ closeBrace :: closeBrace :: back))) := by
  -- The brace behind shows where the placeholder shows nothing.
  rw [readText_placeholder lib (nilRow key) 0 some_name plain, render_nilRow]
  have behind : StartsWith closeBrace
      (readText lib (nilRow key) 0 (closeBrace :: back)) := by
    by_cases doubled : back.head? = some closeBrace
    · obtain ⟨later, rfl⟩ := head?_eq_some_iff.mp doubled
      exact startsWith_joined (by simp) (readText_nilRow lib key later)
    · rw [readText_char lib (nilRow key) 0 (.inr doubled) (fun opens => absurd opens (by decide))]
      exact startsWith_joined (by simp) (readText_nilRow lib key back)
  have there := readText_nilRow lib key (closeBrace :: back)
  rcases inNilRow_start key name with
    ⟨asked, nil⟩ | ⟨-, empty | zero⟩ | ⟨missed, some_asked, verbatim⟩
  · refine ⟨'<', ?_, startsWith_joined nil there⟩
    rintro rfl
    rcases other with ⟨-, missed⟩ | ⟨opens, -⟩
    · exact missed asked
    · exact absurd opens (by decide)
  · refine ⟨closeBrace, notClose.symm, ?_⟩
    rw [empty, ok_empty_joined]
    exact behind
  · exact ⟨'0', notZero.symm, startsWith_joined zero there⟩
  · refine ⟨openBrace, ?_, startsWith_joined verbatim there⟩
    rintro rfl
    rcases other with ⟨nil, -⟩ | ⟨-, none | hit⟩
    · exact absurd nil (by decide)
    · exact some_asked none
    · exact missed hit

theorem closed_startsWith {more back content : List Char} {mark : Char} {key : String}
    (closed : ClosedBy V F pattern more back) (marks : mark ∈ content)
    (asked : (placeholderTemplatePart (content ++ more)).asksFor = some key) :
    StartsWith '<' (shownBehind lib (nilRow key) 0 content pattern) := by
  rw [closed lib (nilRow key) 0 content (ne_nil_of_mem marks), render_nilRow]
  have there := shown_nilRow lib key back
  rcases inNilRow_start key (content ++ more) with ⟨-, nil⟩ | ⟨missed, -⟩ | ⟨missed, -⟩
  · exact startsWith_joined nil there
  · exact absurd asked missed
  · exact absurd asked missed

/-- A name in braces before a closing brace is shown differently. -/
theorem differs_doubled (some_name : name ≠ []) (plain : Plain name) (back : List Char) :
    let pattern := openBrace :: (name ++ closeBrace :: closeBrace :: back)
    ∃ key, shown lib (nilRow key) 0 pattern ≠ readText lib (nilRow key) 0 pattern := by
  -- The doubled brace becomes a mark in the placeholder's name.
  have behind : ∀ key, shown lib (nilRow key) 0
      (openBrace :: (name ++ closeBrace :: closeBrace :: back)) =
        shownBehind lib (nilRow key) 0 (name ++ ['\x01']) back := by
    intro key
    have opens := head_name some_name plain (closeBrace :: closeBrace :: back)
    rw [shown_open lib _ 0 opens, shownBehind_plain lib _ 0 plain, nil_append,
      shownBehind_char lib _ 0 (by decide) (marked_closePair back)]
  by_cases closed : nextSingle back = some closeBrace
  · -- The placeholder has another name, of which only the row's column is one.
    obtain ⟨more, later, closes⟩ := @exists_closedBy V F back closed
    have mark : '\x01' ∈ name ++ ['\x01'] := by simp
    obtain ⟨key, asked⟩ := asksFor_of_mark
      (mem_append_left more mark) (.inr rfl)
    have missed : (placeholderTemplatePart name).asksFor ≠ some key := by
      intro same
      have first := count_asksFor same
      have second := count_asksFor asked
      simp only [count_append, count_cons_self, count_nil] at second
      omega
    obtain ⟨d, differs, read⟩ := readText_start lib key some_name plain back (c := '<')
      (by decide) (by decide) (.inl ⟨rfl, missed⟩)
    exact ⟨key, by
      rw [behind]
      exact (closed_startsWith lib closes mark asked).ne read differs.symm⟩
  · -- Without another single brace the name is shown as it stands, behind its brace.
    have there : ∃ key, (placeholderTemplatePart name).asksFor = none ∨
        (placeholderTemplatePart name).asksFor = some key := by
      cases (placeholderTemplatePart name).asksFor with
      | none => exact ⟨"", .inl rfl⟩
      | some key => exact ⟨key, .inr rfl⟩
    obtain ⟨key, asked⟩ := there
    obtain ⟨d, differs, read⟩ := readText_start lib key some_name plain back (c := openBrace)
      (by decide) (by decide) (.inr ⟨rfl, asked⟩)
    refine ⟨key, ?_⟩
    rw [behind, shownBehind_unclosed lib _ 0 closed]
    refine (startsWith_joined ?_ (shown_nilRow lib key back)).ne read differs.symm
    simp [unmark, openBrace]

/-- A brace that a doubled one makes a placeholder is shown differently. -/
theorem differs_opened {rest : List Char} (single : rest.head? ≠ some openBrace)
    (nameless : placeholderName rest = none)
    (doubled : startsDoubled (rest.dropWhile noBrace) = true)
    (closed : nextSingle (rest.dropWhile noBrace) = some closeBrace) :
    ∃ key, shown lib (nilRow key) 0 (openBrace :: rest) ≠
      readText lib (nilRow key) 0 (openBrace :: rest) := by
  -- The doubled brace is a mark in the name of the placeholder.
  have cut : rest.takeWhile noBrace ++ rest.dropWhile noBrace = rest := takeWhile_append_dropWhile
  have plain := plain_takeWhile rest
  obtain ⟨mark, back, marks, free, marking, found⟩ : ∃ mark back, (mark = '\x00' ∨ mark = '\x01') ∧
      noBrace mark = true ∧ marked (rest.dropWhile noBrace) = mark :: marked back ∧
      nextSingle back = some closeBrace := by
    match later : rest.dropWhile noBrace with
    | [] | [c] => simp [later, startsDoubled] at doubled
    | c :: d :: back =>
      rw [later] at doubled closed
      simp only [startsDoubled, Bool.and_eq_true, Bool.not_eq_true', decide_eq_true_eq] at doubled
      obtain ⟨brace, rfl⟩ := doubled
      rcases brace_cases brace with rfl | rfl
      · exact ⟨'\x00', back, .inl rfl, by decide, marked_openPair back, closed⟩
      · exact ⟨'\x01', back, .inr rfl, by decide, marked_closePair back, closed⟩
  obtain ⟨more, later, closes⟩ := @exists_closedBy V F back found
  have member : mark ∈ rest.takeWhile noBrace ++ [mark] := by simp
  obtain ⟨key, asked⟩ := asksFor_of_mark (mem_append_left more member) marks
  refine ⟨key, ?_⟩
  have behind : shown lib (nilRow key) 0 (openBrace :: rest) =
      shownBehind lib (nilRow key) 0 (rest.takeWhile noBrace ++ [mark]) back := by
    rw [shown_open lib _ 0 single]
    conv_lhs => rw [← cut]
    rw [shownBehind_plain lib _ 0 plain, nil_append, shownBehind_char lib _ 0 free marking]
  rw [behind, readText_char lib _ 0 (.inr single) fun _ => nameless]
  refine (closed_startsWith lib closes member asked).ne
    (startsWith_joined (c := openBrace) ?_ (readText_nilRow lib key rest)) (by decide)
  simp

/-- A pattern failing the check is shown otherwise in some row. -/
theorem shown_ne_readText (bad : readsOnce 0 pattern = false) :
    ∃ key, shown lib (nilRow key) 0 pattern ≠ readText lib (nilRow key) 0 pattern := by
  -- By the length: the readings part where a brace is read twice.
  induction length : pattern.length using Nat.strong_induction_on generalizing pattern with
  | _ n ih =>
    subst length
    cases reading pattern with
    | nil => cases bad
    | pair c rest brace =>
      rw [readsOnce_pair brace] at bad
      obtain ⟨key, differs⟩ := ih rest.length (pair_shorter c rest) bad rfl
      refine ⟨key, ?_⟩
      rw [shown_pair lib _ 0 brace, readText_pair lib _ 0 brace]
      exact joined_ne differs
    | char c rest other single =>
      rw [readsOnce_char other single] at bad
      by_cases mark : c = '\x00' ∨ c = '\x01'
      · -- A mark is shown as the brace that it stands for.
        refine ⟨"", ?_⟩
        rw [shown_single lib _ 0 other single,
          readText_char lib _ 0 single (fun opens => absurd opens other)]
        have own : (String.ofList [c]).toList.head? = some c := by simp
        rcases mark with rfl | rfl
        · exact (startsWith_joined (c := openBrace) (by decide) (shown_nilRow lib "" rest)).ne
            (startsWith_joined own (readText_nilRow lib "" rest)) (by decide)
        · exact (startsWith_joined (c := closeBrace) (by decide) (shown_nilRow lib "" rest)).ne
            (startsWith_joined own (readText_nilRow lib "" rest)) (by decide)
      · obtain ⟨first, second⟩ := not_or.mp mark
        obtain ⟨key, differs⟩ := ih rest.length (by simp) (by simpa [first, second] using bad) rfl
        refine ⟨key, ?_⟩
        have kept : unmark [c] = String.ofList [c] := by simp [unmark, first, second]
        rw [shown_single lib _ 0 other single,
          readText_char lib _ 0 single (fun opens => absurd opens other), kept]
        exact joined_ne differs
    | placeholder name back some_name plain =>
      rw [readsOnce_placeholder some_name plain] at bad
      by_cases doubled : back.head? = some closeBrace
      · obtain ⟨later, rfl⟩ := head?_eq_some_iff.mp doubled
        exact differs_doubled lib some_name plain later
      · obtain ⟨key, differs⟩ := ih back.length (placeholder_shorter name back)
          (by simpa [doubled] using bad) rfl
        refine ⟨key, ?_⟩
        rw [shown_placeholder lib _ 0 some_name plain doubled,
          readText_placeholder lib _ 0 some_name plain, render_nilRow]
        exact joined_ne differs
    | opened rest single nameless =>
      rw [readsOnce_opened single nameless] at bad
      by_cases closing : startsDoubled (rest.dropWhile noBrace) = true ∧
          nextSingle (rest.dropWhile noBrace) = some closeBrace
      · exact differs_opened lib single nameless closing.1 closing.2
      · have later : readsOnce 0 rest = false := by
          by_contra fine
          have passed : readsOnce 0 rest = true := by simpa using fine
          simp [passed] at bad
          exact closing bad
        obtain ⟨key, differs⟩ := ih rest.length (by simp) later rfl
        refine ⟨key, ?_⟩
        rw [shown_opened lib _ 0 single nameless closing,
          readText_char lib _ 0 (.inr single) (fun _ => nameless)]
        exact joined_ne differs

end Differs

/-- A character of the values that a row has for placeholders. -/
def FromRow (lib : RedisLib V F) (entry : WriteEntry V) (xid : Nat) (c : Char) : Prop :=
  c ∈ entry.table.name.toList ∨ c ∈ entry.table.schema.toList ∨ c ∈ entry.pk.toList ∨
    c ∈ (toString xid).toList ∨
    ∃ colName value, (entry.tuple.get colName = .ok (some value) ∨
      entry.prevTuple.lookup colName = .ok (some value)) ∧
      c ∈ (stringifyForRedis lib value).toList

section Read

variable {lib : RedisLib V F} {entry : WriteEntry V} {xid : Nat}

variable {text : String} {c : Char}

/-- A placeholder is replaced by a value of the row, or it is kept. -/
theorem render_chars {content : List Char}
    (rendered : (placeholderTemplatePart content).render lib entry entry.tuple xid = .ok text)
    (member : c ∈ text.toList) : c ∈ braced content ∨ FromRow lib entry xid c := by
  rcases placeholderTemplatePart_cases content with ⟨-, part⟩ | ⟨-, -, part⟩ | ⟨-, -, part⟩
  · simp only [mem_cons, not_mem_nil, or_false] at part
    rcases part with same | same | same | same
    · rw [same] at rendered
      cases rendered
      exact .inr (.inl member)
    · rw [same] at rendered
      cases rendered
      exact .inr (.inr (.inl member))
    · rw [same] at rendered
      cases rendered
      exact .inr (.inr (.inr (.inr (.inl member))))
    · rw [same] at rendered
      cases rendered
      exact .inr (.inr (.inr (.inl member)))
  · rw [part] at rendered
    obtain ⟨value, found, same⟩ := bind_eq_ok.mp rendered
    cases same
    cases value with
    | none => simp at member
    | some value =>
      exact .inr (.inr (.inr (.inr (.inr ⟨_, value, .inr found, by simpa using member⟩))))
  · rw [part] at rendered
    obtain ⟨value, found, same⟩ := bind_eq_ok.mp rendered
    cases same
    cases value with
    | none => exact .inl (by simpa using member)
    | some value =>
      exact .inr (.inr (.inr (.inr (.inr ⟨_, value, .inl found, by simpa using member⟩))))

theorem joined_chars {first second : Except Fault String} (both : joined first second = .ok text)
    (member : c ∈ text.toList) : (∃ front, first = .ok front ∧ c ∈ front.toList) ∨
      ∃ back, second = .ok back ∧ c ∈ back.toList := by
  obtain ⟨front, one, both⟩ := bind_eq_ok.mp both
  obtain ⟨back, other, both⟩ := bind_eq_ok.mp both
  cases both
  rw [String.toList_append, mem_append] at member
  exact member.imp (fun inFront => ⟨front, one, inFront⟩) fun inBack => ⟨back, other, inBack⟩

/-- A pattern is read as characters of its own and of the values of the row. -/
theorem readText_chars {pattern : List Char} (read : readText lib entry xid pattern = .ok text)
    (member : c ∈ text.toList) : c ∈ pattern ∨ FromRow lib entry xid c := by
  -- A part that is read as itself has a shorter pattern behind it.
  induction length : pattern.length using Nat.strong_induction_on generalizing pattern text with
  | _ n ih =>
    subst length
    have literal : ∀ {d : Char} {rest : List Char}, rest.length < pattern.length → d ∈ pattern →
        (∀ e ∈ rest, e ∈ pattern) →
        joined (.ok (String.ofList [d])) (readText lib entry xid rest) = .ok text →
        c ∈ pattern ∨ FromRow lib entry xid c := by
      intro d rest shorter own part both
      rcases joined_chars both member with ⟨front, ⟨⟩, here⟩ | ⟨back, later, behind⟩
      · rw [String.toList_ofList, mem_singleton] at here
        exact .inl (here ▸ own)
      · exact (ih rest.length shorter later behind rfl).imp_left (part c)
    cases reading pattern with
    | nil =>
      cases read
      simp at member
    | pair d rest brace =>
      rw [readText_pair lib entry xid brace] at read
      refine literal (pair_shorter d rest) mem_cons_self (fun e within => ?_) read
      exact mem_cons_of_mem _ (mem_cons_of_mem _ within)
    | char d rest other single =>
      rw [readText_char lib entry xid single (fun opens => absurd opens other)] at read
      exact literal (by simp) mem_cons_self
        (fun e within => mem_cons_of_mem _ within) read
    | opened rest single nameless =>
      rw [readText_char lib entry xid (.inr single) (fun _ => nameless)] at read
      exact literal (by simp) mem_cons_self
        (fun e within => mem_cons_of_mem _ within) read
    | placeholder name back some_name plain =>
      rw [readText_placeholder lib entry xid some_name plain] at read
      rcases joined_chars read member with ⟨front, rendered, here⟩ | ⟨rest, later, behind⟩
      · refine (render_chars rendered here).imp_left fun own => ?_
        simp only [braced, cons_append, mem_cons, mem_append, not_mem_nil, or_false] at own ⊢
        exact own.imp id (Or.imp id .inl)
      · have shorter := placeholder_shorter name back
        refine (ih back.length shorter later behind rfl).imp_left fun own => ?_
        simp [own]

end Read

/-- A template is rendered as in one reading from the left. -/
structure RendersAsRead (lib : RedisLib V F) (pattern : String) : Prop where
  same : ∀ (txTimeOpts : TxCommitTimeOptions) (entry : WriteEntry V) (commitTime xid : Nat)
    (arr : ArgArray F) (startAt : Nat),
    (compileCommand pattern).fill lib txTimeOpts entry commitTime xid entry.tuple arr startAt = (do
        let text ← readText lib entry xid pattern.toList
        let arr ← storeArg arr startAt (.text text)
        return (entry.tuple, arr, startAt + 1))
  chars : ∀ (txTimeOpts : TxCommitTimeOptions) (entry : WriteEntry V) (commitTime xid : Nat)
    (next : EntryTuple V × ArgArray F × Nat) (text : String),
    (compileCommand pattern).fill lib txTimeOpts entry commitTime xid entry.tuple [none] 0 =
      .ok next → next.2.1 = [some (.text text)] →
    ∀ c ∈ text.toList, c ∈ pattern.toList ∨ FromRow lib entry xid c

/--
A template is rendered as in one reading from the left exactly when doubled braces cannot be
mistaken in it.
-/
theorem template_reads_once_iff (lib : RedisLib V F) {pattern : String}
    (template : IsTemplate pattern) :
    RendersAsRead lib pattern ↔ readsOnce 0 pattern.toList = true := by
  -- An array of one place holds the text that was rendered.
  have fills := fun (txTimeOpts : TxCommitTimeOptions) (entry : WriteEntry V) (commitTime xid : Nat)
      (arr : ArgArray F) (startAt : Nat) => compileTemplateCommand_fill lib entry entry.tuple xid
        (marked pattern.toList) txTimeOpts commitTime arr startAt
  rw [← compileCommand_template template] at fills
  constructor
  · intro renders
    by_contra bad
    obtain ⟨key, differs⟩ := shown_ne_readText lib (by simpa using bad)
    have stored := renders.same ⟨false, ""⟩ (nilRow key) 0 0 [none] 0
    rw [fills] at stored
    obtain ⟨front, first⟩ := shown_nilRow lib key pattern.toList
    obtain ⟨back, second⟩ := readText_nilRow lib key pattern.toList
    unfold shown at first
    rw [first, second] at stored
    have texts : (Except.ok ((nilRow key : WriteEntry V).tuple, [some (RedisArg.text front)], 1) :
        Except Fault (EntryTuple V × ArgArray F × Nat)) =
          .ok ((nilRow key : WriteEntry V).tuple, [some (RedisArg.text back)], 1) := stored
    have equal : front = back := by simpa using texts
    apply differs
    rw [second, ← equal]
    exact first
  · intro fine
    have same : ∀ entry xid, renderSegments lib entry entry.tuple xid
        (segments (marked pattern.toList)) = readText lib entry xid pattern.toList :=
      fun entry xid => shown_eq_readText lib entry xid fine
    refine ⟨fun txTimeOpts entry commitTime xid arr startAt => ?_,
      fun txTimeOpts entry commitTime xid next text filled stored c member => ?_⟩
    · rw [fills, same]
    · rw [fills, same] at filled
      obtain ⟨own, read, filled⟩ := bind_eq_ok.mp filled
      obtain ⟨arr, kept, filled⟩ := bind_eq_ok.mp filled
      cases filled
      cases kept
      have equal : own = text := by simpa using stored
      exact readText_chars read (equal ▸ member)

/-- Doubled braces around a placeholder are rendered as read. -/
theorem template_reads_once_iff_nested : RendersAsRead Sample.lib "\x7b\x7bx\x7d\x7d:\x7bid\x7d" :=
  (template_reads_once_iff Sample.lib (by decide)).mpr (by decide)

/-- A closing brace behind a placeholder hides it; two rename it. -/
theorem template_mark_shown :
    IsTemplate "\x7bid\x7d\x7d" ∧ IsTemplate "\x7bid\x7d\x7d\x7d" ∧
    (compileCommand "\x7bid\x7d\x7d").fill Sample.lib ⟨false, ""⟩
        (nilRow "id" : WriteEntry (List UInt8)) 0 0 (nilRow "id" : WriteEntry (List UInt8)).tuple
        [none] 0 =
      .ok ((nilRow "id" : WriteEntry (List UInt8)).tuple, [some (.text "\x7bid\x7d")], 1) ∧
    readText Sample.lib (nilRow "id") 0 "\x7bid\x7d\x7d".toList = .ok "<nil>\x7d" ∧
    (compileCommand "\x7bid\x7d\x7d\x7d").fill Sample.lib ⟨false, ""⟩
        (nilRow "id" : WriteEntry (List UInt8)) 0 0 (nilRow "id" : WriteEntry (List UInt8)).tuple
        [none] 0 =
      .ok ((nilRow "id" : WriteEntry (List UInt8)).tuple, [some (.text "\x7bid\x01\x7d")], 1) ∧
    readText Sample.lib (nilRow "id") 0 "\x7bid\x7d\x7d\x7d".toList = .ok "<nil>\x7d" := by
  exact ⟨by decide, by decide, rfl, rfl, rfl, rfl⟩

end PgWalk.Redis
