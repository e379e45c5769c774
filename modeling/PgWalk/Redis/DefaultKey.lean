import PgWalk.Redis.ArgArray

/-! The key of a row under the default commands: where it is stored and where it is deleted. -/

namespace PgWalk.Redis

open RedisCompiledCommand RedisDynamicWriter List

variable {V F : Type}

/-- Two texts one behind the other, if there are both. -/
def joined (first second : Except Fault String) : Except Fault String := do
  let front ← first
  let back ← second
  return front ++ back

theorem joined_assoc (first second third : Except Fault String) :
    joined (joined first second) third = joined first (joined second third) := by
  cases first <;> cases second <;> cases third <;>
    simp [joined, bind, Except.bind, pure, Except.pure, String.append_assoc]

@[simp] theorem joined_ok (front back : String) :
    joined (.ok front) (.ok back) = .ok (front ++ back) := rfl

@[simp] theorem ok_empty_joined (text : Except Fault String) : joined (.ok "") text = text := by
  cases text <;> simp [joined, bind, Except.bind, pure, Except.pure]

@[simp] theorem joined_ok_empty (text : Except Fault String) : joined text (.ok "") = text := by
  cases text <;> simp [joined, bind, Except.bind, pure, Except.pure]

/-- A pattern with the marks that stand for doubled braces. -/
def marked (pattern : List Char) : List Char :=
  replacePair closeBrace '\x01' (replacePair openBrace '\x00' pattern)

theorem unmark_append (front back : List Char) :
    unmark (front ++ back) = unmark front ++ unmark back := by
  simp [unmark]

variable {char other : Char} {front text : List Char} {pattern start : String} {arr : ArgArray F}
  {startAt : Nat}

theorem replacePair_append {mark : Char} (single : other ≠ char) (front back : List Char) :
    replacePair char mark (front ++ other :: back) =
      replacePair char mark front ++ replacePair char mark (other :: back) := by
  induction front using replacePair.induct char with
  | case1 => rfl
  | case2 c => simp [replacePair, single]
  | case3 c d rest pair ih => simp [replacePair, pair, ih]
  | case4 c d rest apart ih =>
    simp only [cons_append, replacePair, if_neg apart, List.cons.injEq, true_and]
    exact ih

theorem replacePair_of_notMem (mark : Char) (absent : char ∉ text) :
    replacePair char mark text = text := by
  induction text using replacePair.induct char with
  | case1 => rfl
  | case2 c => rfl
  | case3 c d rest pair ih => simp [pair.1] at absent
  | case4 c d rest apart ih =>
    rw [replacePair, if_neg apart, ih fun later => absent (.tail _ later)]

theorem marked_plain (plain : Plain text) : marked text = text := by
  rw [marked, replacePair_of_notMem _ plain.1, replacePair_of_notMem _ plain.2]

theorem marked_append (noOpen : other ≠ openBrace) (noClose : other ≠ closeBrace)
    (front back : List Char) (kept : replacePair openBrace '\x00' (other :: back) = other :: back) :
    marked (front ++ other :: back) = marked front ++ marked (other :: back) := by
  simp only [marked]
  rw [replacePair_append noOpen, kept, replacePair_append noClose]

section Render

variable (lib : RedisLib V F) (entry : WriteEntry V) (tuple : EntryTuple V) (xid : Nat)

/-- The text that the parts of a pattern stand for in a row. -/
def renderSegments : List Segment → Except Fault String
  | [] => .ok ""
  | part :: rest => joined ((templatePart part).render lib entry tuple xid) (renderSegments rest)

/-- The text of a table's name, in which placeholders are replaced too. -/
def renderName (name : String) : Except Fault String :=
  renderSegments lib entry tuple xid (segments (marked name.toList))

theorem renderSegments_append (front back : List Segment) :
    renderSegments lib entry tuple xid (front ++ back) =
      joined (renderSegments lib entry tuple xid front)
        (renderSegments lib entry tuple xid back) := by
  induction front with
  | nil => simp [renderSegments]
  | cons part rest ih => simp [renderSegments, ih, joined_assoc]

theorem renderSegments_literal (text : List Char) :
    renderSegments lib entry tuple xid (literalSegment text) = .ok (unmark text) := by
  cases text with
  | nil => rfl
  | cons c rest => simp [literalSegment, renderSegments, templatePart, TemplatePart.render]

/-- What has been read of a literal part stands in front of everything else. -/
theorem renderSegments_scan (first literal : List Char) (pending : Option (List Char))
    (pattern : List Char) :
    renderSegments lib entry tuple xid (scan (first ++ literal) pending pattern) =
      joined (.ok (unmark first))
        (renderSegments lib entry tuple xid (scan literal pending pattern)) := by
  -- The brace ends a placeholder, or joins the literal part.
  induction pattern generalizing literal pending with
  | nil => simp [scan, renderSegments_literal, unmark_append]
  | cons c rest ih =>
    simp only [scan]
    by_cases opens : c = openBrace
    · rw [if_pos opens, if_pos opens, append_assoc, ih]
    · rw [if_neg opens, if_neg opens]
      by_cases closes : c = closeBrace
      · rw [if_pos closes, if_pos closes]
        rcases pending with _ | ⟨_ | ⟨char, content⟩⟩
        · simp only [append_assoc]
          rw [ih]
        · simp only [append_assoc]
          rw [ih]
        · rw [renderSegments_append, renderSegments_append, renderSegments_literal,
            renderSegments_literal, unmark_append, ← joined_assoc, joined_ok]
      · rw [if_neg closes, if_neg closes]
        cases pending with
        | none => rw [append_assoc, ih]
        | some content => rw [ih]

theorem scan_plain (literal : List Char) (pending : Option (List Char)) {text : List Char}
    (plain : Plain text) :
    scan literal pending text = literalSegment (literal ++ pendingText pending ++ text) := by
  induction text generalizing literal pending with
  | nil => simp [scan]
  | cons c rest ih =>
    obtain ⟨free, later⟩ := plain_cons_iff.mp plain
    simp only [scan]
    rw [if_neg free.1, if_neg free.2]
    cases pending with
    | none | some content => simp [ih _ _ later, pendingText]

theorem renderSegments_placeholder (literal : List Char) (part : Segment) (rest : List Segment) :
    renderSegments lib entry tuple xid (literalSegment literal ++ part :: rest) =
      joined (joined (.ok (unmark literal)) ((templatePart part).render lib entry tuple xid))
        (renderSegments lib entry tuple xid rest) := by
  rw [renderSegments_append, renderSegments_literal, renderSegments, joined_assoc]

variable {back : List Char}

/-- What stands behind a pattern is rendered on its own. -/
theorem renderSegments_scan_append (literal : List Char) (pending : Option (List Char))
    (front : List Char)
    (apart : ∀ literal pending, renderSegments lib entry tuple xid (scan literal pending back) =
        joined (.ok (unmark (literal ++ pendingText pending)))
          (renderSegments lib entry tuple xid (segments back))) :
    renderSegments lib entry tuple xid (scan literal pending (front ++ back)) =
      joined (renderSegments lib entry tuple xid (scan literal pending front))
        (renderSegments lib entry tuple xid (segments back)) := by
  -- By induction on the front, with what has been read of it so far.
  induction front generalizing literal pending with
  | nil => simp only [nil_append, apart, scan, renderSegments_literal]
  | cons c rest ih =>
    simp only [cons_append, scan]
    by_cases opens : c = openBrace
    · rw [if_pos opens, if_pos opens, ih]
    · rw [if_neg opens, if_neg opens]
      by_cases closes : c = closeBrace
      · rw [if_pos closes, if_pos closes]
        rcases pending with _ | ⟨_ | ⟨char, content⟩⟩
        · simp [ih]
        · simp [ih]
        · simp [renderSegments_placeholder, ih, joined_assoc]
      · rw [if_neg closes, if_neg closes]
        cases pending with
        | none => simp only [ih]
        | some read => simp [ih]

theorem renderSegments_append_plain (front : List Char) (plain : Plain back) :
    renderSegments lib entry tuple xid (segments (front ++ back)) =
      joined (renderSegments lib entry tuple xid (segments front)) (.ok (unmark back)) := by
  have own : renderSegments lib entry tuple xid (segments back) = .ok (unmark back) := by
    simp [segments, scan_plain [] none plain, renderSegments_literal, pendingText]
  rw [← own]
  apply renderSegments_scan_append
  intro literal pending
  rw [own, scan_plain literal pending plain, renderSegments_literal, unmark_append, joined_ok]

theorem renderSegments_append_open (front back : List Char) :
    renderSegments lib entry tuple xid (segments (front ++ openBrace :: back)) =
      joined (renderSegments lib entry tuple xid (segments front))
        (renderSegments lib entry tuple xid (segments (openBrace :: back))) := by
  -- The brace makes everything in front of it literal.
  apply renderSegments_scan_append
  intro literal pending
  have start : ∀ literal pending, scan literal pending (openBrace :: back) =
      scan (literal ++ pendingText pending) (some []) back := fun _ _ => by
    simp [scan]
  rw [segments, start, start, ← renderSegments_scan]
  simp [pendingText]

theorem renderName_plain {name : String} (plain : Plain name.toList) :
    renderName lib entry tuple xid name = .ok (unmark name.toList) := by
  rw [renderName, marked_plain plain, segments, scan_plain [] none plain, renderSegments_literal]
  rfl

theorem renderSegments_eq (parts : List Segment) :
    renderSegments lib entry tuple xid parts = (do
      let texts ← (parts.map templatePart).mapM (TemplatePart.render lib entry tuple xid)
      return String.join texts) := by
  induction parts with
  | nil => rfl
  | cons part rest ih =>
    rw [renderSegments, ih, map_cons, mapM_cons]
    cases (templatePart part).render lib entry tuple xid with
    | error fault => rfl
    | ok text =>
      cases (rest.map templatePart).mapM (TemplatePart.render lib entry tuple xid) with
      | error fault => rfl
      | ok texts => simp [joined, bind, Except.bind, pure, Except.pure]

theorem renderSegments_literals {parts : List Segment}
    (literals : parts.all (fun part => match part with
      | .literal _ => true
      | .placeholder _ => false) = true) :
    renderSegments lib entry tuple xid parts = .ok (unmark (parts.flatMap Segment.text)) := by
  induction parts with
  | nil => rfl
  | cons part rest ih =>
    simp only [all_cons, Bool.and_eq_true] at literals
    rw [renderSegments, ih literals.2, flatMap_cons, unmark_append]
    cases part with
    | literal text => rfl
    | placeholder content => cases literals.1

theorem compileTemplateCommand_fill (pattern : List Char) (txTimeOpts : TxCommitTimeOptions)
    (commitTime : Nat) (arr : ArgArray F) (startAt : Nat) :
    (compileTemplateCommand pattern).fill lib txTimeOpts entry commitTime xid tuple arr startAt =
      (do
        let text ← renderSegments lib entry tuple xid (segments pattern)
        let arr ← storeArg arr startAt (.text text)
        return (tuple, arr, startAt + 1)) := by
  simp only [compileTemplateCommand]
  split
  · rename_i literals
    rw [renderSegments_literals lib entry tuple xid literals, segments_text]
    rfl
  · simp only [fill, renderSegments_eq]
    cases ((segments pattern).map templatePart).mapM
      (TemplatePart.render lib entry tuple xid) <;> rfl

end Render

theorem wholeForm_of_last {last : Char} (ends : pattern.toList = front ++ [last])
    (noBrace : last ≠ closeBrace) : wholeForm pattern start = none := by
  have open_ : hasSuffix pattern "\x7d" = false := by
    simp only [hasSuffix, ends, isSuffixOf_iff_suffix, Bool.eq_false_iff, ne_eq]
    intro suffix
    obtain ⟨before, same⟩ := suffix
    have same_last : [closeBrace] = [last] := append_inj_right' same rfl
    exact noBrace (head_eq_of_cons_eq same_last).symm
  simp [wholeForm, open_]

/-- A pattern with another placeholder at its end is not one. -/
theorem wholeForm_of_inner {back : List Char} {first : Char} {rest : List Char}
    (ends : pattern.toList = front ++ openBrace :: back) (some_front : front ≠ [])
    (some_back : back ≠ []) (starts : start.toList = first :: rest) (plain : openBrace ∉ rest) :
    wholeForm pattern start = none := by
  -- The start ends in front of the inner brace.
  simp only [wholeForm]
  split
  · rename_i whole
    obtain ⟨begins, -, clean⟩ := whole
    refine absurd ?_ clean
    have leads : start.toList <+: pattern.toList := isPrefixOf_iff_prefix.mp begins
    have short : start.toList.length ≤ front.length := by
      by_contra long
      have inner : openBrace ∈ start.toList.drop front.length := by
        obtain ⟨more, same⟩ := leads
        have cut := congrArg (List.drop front.length) same
        rw [ends, drop_append_of_le_length (by omega), drop_left] at cut
        cases remaining : start.toList.drop front.length with
        | nil =>
          have length := congrArg List.length remaining
          simp only [length_drop, length_nil] at length
          omega
        | cons c others =>
          rw [remaining] at cut
          simp only [cons_append, List.cons.injEq] at cut
          simp [cut.1]
      have positive : 0 < front.length := length_pos_iff.mpr some_front
      rw [starts, ← Nat.succ_pred_eq_of_pos positive, drop_succ_cons] at inner
      exact plain (mem_of_mem_drop inner)
    have dropped : pattern.toList.drop start.toList.length =
        front.drop start.toList.length ++ openBrace :: back := by
      rw [ends, drop_append_of_le_length short]
    simp only [between, String.toList_ofList, dropped]
    rw [dropLast_append_of_ne_nil (by simp), dropLast_cons_of_ne_nil some_back]
    simp
  · rfl

/-- The deleted key's pattern is a template; `%pk%` stands for itself. -/
theorem compileCommand_deleted (name : String) : compileCommand (name ++ ":%pk%") =
    compileTemplateCommand (marked name.toList ++ ":%pk%".toList) := by
  have ends : (name ++ ":%pk%").toList = (name.toList ++ ":%pk".toList) ++ ['%'] := by
    rw [String.toList_append, append_assoc]
    rfl
  have none : ∀ start, wholeForm (name ++ ":%pk%") start = none :=
    fun start => wholeForm_of_last ends (by decide)
  have other : ∀ text : String, text.toList.getLast? = some closeBrace →
      name ++ ":%pk%" ≠ text := by
    rintro text closes rfl
    rw [ends, getLast?_append] at closes
    have same : some '%' = some closeBrace := closes
    exact absurd same (by decide)
  have marks : marked (name ++ ":%pk%").toList = marked name.toList ++ ":%pk%".toList := by
    rw [String.toList_append]
    exact marked_append (by decide) (by decide) name.toList "%pk%".toList (by decide)
  rw [compileCommand, if_neg (other _ (by decide)), none, if_neg (other _ (by decide)),
    if_neg (other _ (by decide)), none, none, ← marks]
  rfl

/-- The stored key's pattern is a template that ends with the key. -/
theorem compileCommand_stored (name : String) : compileCommand (name ++ ":" ++ "\x7b%pk%\x7d") =
    compileTemplateCommand ((marked name.toList ++ [':']) ++ "\x7b%pk%\x7d".toList) := by
  -- The placeholders for the whole row end with a star.
  have ends : (name ++ ":" ++ "\x7b%pk%\x7d").toList =
      (name.toList ++ [':']) ++ openBrace :: "%pk%\x7d".toList := by
    rw [String.toList_append, String.toList_append]
    rfl
  have none : ∀ start : String, (∃ first rest, start.toList = first :: rest ∧ openBrace ∉ rest) →
      wholeForm (name ++ ":" ++ "\x7b%pk%\x7d") start = none := by
    rintro start ⟨first, rest, starts, plain⟩
    exact wholeForm_of_inner ends (by simp) (by decide) starts plain
  have other : ∀ text : String, text.toList.reverse.take 2 = [closeBrace, '*'] →
      name ++ ":" ++ "\x7b%pk%\x7d" ≠ text := by
    rintro text star rfl
    rw [ends] at star
    simp [openBrace] at star
  have marks : marked (name ++ ":" ++ "\x7b%pk%\x7d").toList =
      (marked name.toList ++ [':']) ++ "\x7b%pk%\x7d".toList := by
    rw [String.toList_append, String.toList_append, append_assoc, append_assoc]
    exact marked_append (by decide) (by decide) name.toList "\x7b%pk%\x7d".toList (by decide)
  rw [compileCommand, if_neg (other _ (by decide)), none _ ⟨_, _, rfl, by decide⟩,
    if_neg (other _ (by decide)), if_neg (other _ (by decide)), none _ ⟨_, _, rfl, by decide⟩,
    none _ ⟨_, _, rfl, by decide⟩, ← marks]
  rfl

section Keys

variable (lib : RedisLib V F) (entry : WriteEntry V) (tuple : EntryTuple V) (xid : Nat)

theorem renderSegments_deleted (name : String) :
    renderSegments lib entry tuple xid (segments (marked name.toList ++ ":%pk%".toList)) =
      joined (renderName lib entry tuple xid name) (.ok ":%pk%") := by
  have plain : Plain ":%pk%".toList := ⟨by decide, by decide⟩
  have same : unmark ":%pk%".toList = ":%pk%" := by decide
  rw [renderSegments_append_plain lib entry tuple xid _ plain, same, renderName]

theorem renderSegments_stored (name : String) :
    renderSegments lib entry tuple xid
        (segments ((marked name.toList ++ [':']) ++ "\x7b%pk%\x7d".toList)) =
      joined (joined (renderName lib entry tuple xid name) (.ok ":")) (.ok entry.pk) := by
  have key : renderSegments lib entry tuple xid (segments "\x7b%pk%\x7d".toList) =
      .ok entry.pk := by
    exact joined_ok_empty _
  have colon : unmark [':'] = ":" := by decide
  have plain : Plain [':'] := ⟨by decide, by decide⟩
  rw [renderName, ← colon, ← renderSegments_append_plain lib entry tuple xid _ plain, ← key]
  exact renderSegments_append_open lib entry tuple xid _ _

end Keys

theorem compileTemplateCommand_required (pattern : List Char) (txTimeOpts : TxCommitTimeOptions)
    (tuple : EntryTuple V) :
    (compileTemplateCommand pattern).required txTimeOpts tuple = .ok 1 := by
  simp only [compileTemplateCommand]
  split <;> rfl

theorem storeTexts_take {after : ArgArray F} {next : Nat} {texts : List String}
    (stored : storeTexts arr startAt texts = .ok (after, next)) :
    after.take startAt = arr.take startAt := by
  induction texts generalizing arr startAt with
  | nil =>
    cases stored
    rfl
  | cons text rest ih =>
    obtain ⟨mid, first, later⟩ := bind_eq_ok.mp stored
    simp only [storeArg] at first
    split at first
    · cases first
      have kept := congrArg (List.take startAt) (ih later)
      simpa [take_take, take_set_of_le] using kept
    · cases first

/-- Where there is room for them, all columns are stored behind what is there. -/
theorem fill_pairsStar {om : OrderedMap V} (counted : om.Counted) (lib : RedisLib V F)
    (entry : WriteEntry V) (txTimeOpts : TxCommitTimeOptions) (commitTime xid : Nat)
    (room : startAt + pairsStar.measured txTimeOpts om ≤ arr.length) :
    ∃ after, pairsStar.fill lib txTimeOpts entry commitTime xid
        (.pointer (some om)) arr startAt = .ok (.pointer (some om), after,
          startAt + pairsStar.measured txTimeOpts om) ∧
      after.take startAt = arr.take startAt := by
  have stored := storeTexts_stored arr (show startAt ≤ arr.length by omega)
    (pairsTexts lib txTimeOpts commitTime om)
  rw [pairsTexts_length counted] at stored
  have unfolded : pairsStar.fill lib txTimeOpts entry commitTime xid
      (.pointer (some om)) arr startAt = (do
        let ended ← storeTexts arr startAt (pairsTexts lib txTimeOpts commitTime om)
        return (.pointer (some om), ended.1, ended.2)) := rfl
  rw [unfolded]
  cases result : storeTexts arr startAt (pairsTexts lib txTimeOpts commitTime om) with
  | error fault =>
    rw [result] at stored
    cases stored with
    | outside beyond => omega
  | ok ended =>
    have kept : ended.1.take startAt = arr.take startAt := storeTexts_take result
    rw [result] at stored
    cases stored with
    | inside after fits same => exact ⟨after, rfl, kept⟩

namespace RedisDynamicWriter

variable {w : RedisDynamicWriter} {lib : RedisLib V F} {entry : WriteEntry V} {commitTime xid : Nat}

theorem write_one {cmd : RedisCompiledCommandConfig}
    (only : w.getCommands (.ofKind entry.kind) = [⟨none, [cmd]⟩]) (tuple : EntryTuple V)
    (args : ArgArray F) : w.write lib entry commitTime xid = .ok (tuple, [args]) ↔
      ∃ name table, w.buildCommand lib entry commitTime xid entry.tuple cmd =
        .ok (tuple, some ⟨name, args, table⟩) := by
  simp only [write, only, buildGroups, buildGroup, selects, buildCommands]
  cases built : w.buildCommand lib entry commitTime xid entry.tuple cmd with
  | error fault => cases fault <;> simp [bind, Except.bind]
  | ok result =>
    obtain ⟨after, _ | command⟩ := result
    · simp [bind, Except.bind, pure, Except.pure, enqueued]
    · obtain ⟨name, found, table⟩ := command
      simp [bind, Except.bind, pure, Except.pure, enqueued]

/-- The default deletion deletes the row's own key. -/
theorem buildCommand_deleted (name : String) :
    w.buildCommand lib entry commitTime xid entry.tuple
        ⟨"DEL", [compileCommand (name ++ ":%pk%")]⟩ = (do
      let text ← renderName lib entry entry.tuple xid name
      return (entry.tuple, some ⟨"DEL", [some (.text "DEL"), some (.text (text ++ ":%pk%"))],
        entry.table.fullName⟩)) := by
  have filled : w.fillArgs lib entry commitTime xid entry.tuple [some (.text "DEL"), none] 1
      [compileCommand (name ++ ":%pk%")] = (do
        let text ← renderName lib entry entry.tuple xid name
        return (entry.tuple, [some (.text "DEL"), some (.text (text ++ ":%pk%"))], 2)) := by
    simp only [fillArgs, compileCommand_deleted, compileTemplateCommand_fill,
      renderSegments_deleted]
    cases renderName lib entry entry.tuple xid name <;> rfl
  have counted : [compileCommand (name ++ ":%pk%")].mapM
      (required w.txOpts entry.tuple) = .ok [1] := by
    rw [compileCommand_deleted, mapM_cons, compileTemplateCommand_required]
    rfl
  rw [buildCommand, if_neg (show ¬ "DEL" = "" by decide), counted]
  change (w.fillArgs lib entry commitTime xid entry.tuple [some (.text "DEL"), none] 1
    [compileCommand (name ++ ":%pk%")] >>= _) = _
  rw [filled]
  cases renderName lib entry entry.tuple xid name <;> rfl

/-- The default command for other rows: the key and all columns. -/
theorem buildCommand_stored {om : OrderedMap V} (row : entry.tuple = .pointer (some om))
    (counted : om.Counted) (name : String) : ∃ pairs,
    w.buildCommand lib entry commitTime xid entry.tuple
        ⟨"HSET", [compileCommand (name ++ ":" ++ "\x7b%pk%\x7d"), .pairsStar]⟩ = (do
      let text ← renderName lib entry entry.tuple xid name
      return (entry.tuple, some ⟨"HSET", some (.text "HSET") ::
        some (.text (text ++ ":" ++ entry.pk)) :: pairs, entry.table.fullName⟩)) := by
  -- The key takes the first place, the columns what is behind it.
  let places := pairsStar.measured w.txOpts om
  let arr : ArgArray F := some (.text "HSET") :: List.replicate (1 + places) none
  have lengths : [compileCommand (name ++ ":" ++ "\x7b%pk%\x7d"), .pairsStar].mapM
      (required w.txOpts entry.tuple) = .ok [1, places] := by
    rw [compileCommand_stored, row, mapM_cons, compileTemplateCommand_required]
    rfl
  rw [buildCommand, if_neg (show ¬ "HSET" = "" by decide), lengths]
  change ∃ pairs, (w.fillArgs lib entry commitTime xid entry.tuple arr 1 _ >>= _) = _
  simp only [fillArgs, compileCommand_stored, compileTemplateCommand_fill, renderSegments_stored]
  cases renderName lib entry entry.tuple xid name with
  | error fault => exact ⟨[], rfl⟩
  | ok text =>
    let keyed : ArgArray F := some (.text "HSET") :: some (.text (text ++ ":" ++ entry.pk)) ::
      List.replicate places none
    have second : storeArg arr 1 (.text (text ++ ":" ++ entry.pk)) = .ok keyed := by
      simp [storeArg, arr, keyed, Nat.add_comm 1 places, replicate_succ]
    obtain ⟨after, columns, kept⟩ := fill_pairsStar counted lib entry w.txOpts commitTime xid
      (show 2 + pairsStar.measured w.txOpts om ≤ keyed.length by
        simp only [keyed, length_cons, length_replicate, places]
        omega)
    refine ⟨(after.drop 2).take places, ?_⟩
    have parts : after.take (2 + places) = some (.text "HSET") ::
        some (.text (text ++ ":" ++ entry.pk)) :: (after.drop 2).take places := by
      rw [take_add, kept]
      rfl
    simp only [joined_ok, row, bind, Except.bind]
    rw [second]
    simp only [columns, pure, Except.pure]
    rw [parts]

/-- A row is written by one command, whose first argument is the key. -/
def WritesKey (w : RedisDynamicWriter) (lib : RedisLib V F) (entry : WriteEntry V)
    (commitTime xid : Nat) (name key : String) : Prop :=
  ∃ tuple rest, w.write lib entry commitTime xid =
    .ok (tuple, [some (.text name) :: some (.text key) :: rest])

end RedisDynamicWriter

namespace RedisTableConfig

theorem resolveOperation_of_not_written {op : Option TableOperationConfig}
    {earlier : List RedisCommandWithCondition} (nothing : ¬ Written op earlier) :
    (resolveOperation op earlier).1 = [] := by
  cases op with
  | none => exact not_not.mp nothing
  | some op =>
    have empty : op.commands = [] := not_not.mp nothing
    rw [resolveOperation, empty]
    rfl

theorem WritesNothing.wellForm {cfg : RedisTableConfig} (nothing : cfg.WritesNothing)
    (tableName : String) : (cfg.wellForm tableName).1 = { cfg with
      resolvedCommands := defaultCommands cfg.fullName
      insertCommands := []
      updateCommands := []
      deleteCommands := [] } := by
  obtain ⟨noCommands, noInsert, noUpdate, noDelete⟩ := nothing
  have empty : (resolveCommandsStrict cfg.commands).1 = [] := by
    rw [noCommands]
    rfl
  simp only [RedisTableConfig.wellForm, empty, resolveOperation_of_not_written noInsert,
    resolveOperation_of_not_written noUpdate, resolveOperation_of_not_written noDelete]
  rfl

variable {cfg : RedisTableConfig} (tableName : String) (txOpts : TxCommitTimeOptions)

theorem WritesNothing.getCommands_stored (nothing : cfg.WritesNothing) {op : OperationType}
    (stores : op ≠ .delete) :
    (createPipelineWriter (cfg.wellForm tableName).1 txOpts).getCommands op =
      [⟨none, [⟨"HSET", [compileCommand (cfg.fullName ++ ":" ++ "\x7b%pk%\x7d"),
        .pairsStar]⟩]⟩] := by
  have columns : compileCommand "\x7bpairs:*\x7d" = .pairsStar := by decide
  have name : toUpper "HSET" = "HSET" := by decide
  rw [nothing.wellForm, ← columns, ← name]
  cases op with
  | delete => exact absurd rfl stores
  | insert | update => rfl

theorem WritesNothing.getCommands_deleted (nothing : cfg.WritesNothing) :
    (createPipelineWriter (cfg.wellForm tableName).1 txOpts).getCommands .delete =
      [⟨none, [⟨"DEL", [compileCommand (cfg.fullName ++ ":%pk%")]⟩]⟩] := by
  have name : toUpper "DEL" = "DEL" := by decide
  rw [nothing.wellForm, ← name]
  rfl

variable (lib : RedisLib V F) {entry : WriteEntry V} (commitTime xid : Nat)

/-- Such a table stores a row under its rendered name and key. -/
theorem WritesNothing.writesKey_stored (nothing : cfg.WritesNothing)
    (stores : entry.kind ≠ .delete) {om : OrderedMap V} (row : entry.tuple = .pointer (some om))
    (counted : om.Counted) (key : String) :
    (createPipelineWriter (cfg.wellForm tableName).1 txOpts).WritesKey lib entry commitTime xid
        "HSET" key ↔
      ∃ name, renderName lib entry entry.tuple xid cfg.fullName = .ok name ∧
        key = name ++ ":" ++ entry.pk := by
  have operation : OperationType.ofKind entry.kind ≠ .delete := by
    cases kind : entry.kind with
    | delete => exact absurd kind stores
    | insert | update | snapshotRead => simp [OperationType.ofKind]
  obtain ⟨pairs, built⟩ := @RedisDynamicWriter.buildCommand_stored V F
    (createPipelineWriter (cfg.wellForm tableName).1 txOpts) lib entry commitTime xid om row counted
    cfg.fullName
  simp only [WritesKey, write_one (nothing.getCommands_stored tableName txOpts operation), built]
  cases renderName lib entry entry.tuple xid cfg.fullName with
  | error fault => simp [bind, Except.bind]
  | ok name => simpa [bind, Except.bind, pure, Except.pure] using eq_comm

theorem WritesNothing.writesKey_deleted (nothing : cfg.WritesNothing)
    (deletes : entry.kind = .delete) (key : String) :
    (createPipelineWriter (cfg.wellForm tableName).1 txOpts).WritesKey lib entry commitTime xid
        "DEL" key ↔
      ∃ name, renderName lib entry entry.tuple xid cfg.fullName = .ok name ∧
        key = name ++ ":%pk%" := by
  have only := nothing.getCommands_deleted tableName txOpts
  have operation : OperationType.ofKind entry.kind = .delete := by rw [deletes]; rfl
  rw [← operation] at only
  simp only [WritesKey, write_one only, buildCommand_deleted]
  cases renderName lib entry entry.tuple xid cfg.fullName with
  | error fault => simp [bind, Except.bind]
  | ok name => simpa [bind, Except.bind, pure, Except.pure] using eq_comm

end RedisTableConfig

/-- What lets the default commands store and delete a row under one key. -/
def NamesAlike (lib : RedisLib V F) (upsert delete : WriteEntry V) (upsertXid deleteXid : Nat)
    (fullName : String) : Prop :=
  ∃ stored deleted, renderName lib upsert upsert.tuple upsertXid fullName = .ok stored ∧
    renderName lib delete delete.tuple deleteXid fullName = .ok deleted ∧
    stored ++ ":" ++ upsert.pk = deleted ++ ":%pk%"

theorem namesAlike_plain (lib : RedisLib V F) (upsert delete : WriteEntry V)
    (upsertXid deleteXid : Nat) {fullName : String} (plain : Plain fullName.toList) :
    NamesAlike lib upsert delete upsertXid deleteXid fullName ↔ upsert.pk = "%pk%" := by
  simp only [NamesAlike, renderName_plain _ _ _ _ plain, Except.ok.injEq, exists_eq_left',
    exists_and_left]
  have colon : ":%pk%" = ":" ++ "%pk%" := rfl
  rw [colon, ← String.append_assoc]
  exact String.append_right_inj _

/--
A table without commands deletes a row under the key it is stored under exactly when the template of
the deletion, which writes `%pk%` without braces, happens to be that key.
-/
theorem default_delete_mirrors_iff {cfg : RedisTableConfig} (nothing : cfg.WritesNothing)
    (tableName : String) (txOpts : TxCommitTimeOptions) (lib : RedisLib V F)
    {upsert delete : WriteEntry V} (stores : upsert.kind ≠ .delete)
    (deletes : delete.kind = .delete) (samePK : delete.pk = upsert.pk) {om : OrderedMap V}
    (row : upsert.tuple = .pointer (some om)) (counted : om.Counted)
    (upsertTime upsertXid deleteTime deleteXid : Nat) :
    let w := createPipelineWriter (cfg.wellForm tableName).1 txOpts
    let mirrors := ∃ key, w.WritesKey lib upsert upsertTime upsertXid "HSET" key ∧
      w.WritesKey lib delete deleteTime deleteXid "DEL" key
    (mirrors ↔ NamesAlike lib upsert delete upsertXid deleteXid cfg.fullName) ∧
      (Plain cfg.fullName.toList → (mirrors ↔ delete.pk = "%pk%")) := by
  intro w mirrors
  have alike : mirrors ↔ NamesAlike lib upsert delete upsertXid deleteXid cfg.fullName := by
    simp only [mirrors, w, nothing.writesKey_stored tableName txOpts lib upsertTime upsertXid stores
      row counted, nothing.writesKey_deleted tableName txOpts lib deleteTime deleteXid deletes]
    constructor
    · rintro ⟨key, ⟨stored, renderStored, same⟩, deleted, renderDeleted, sameDeleted⟩
      exact ⟨stored, deleted, renderStored, renderDeleted, same.symm.trans sameDeleted⟩
    · rintro ⟨stored, deleted, renderStored, renderDeleted, same⟩
      exact ⟨_, ⟨stored, renderStored, rfl⟩, deleted, renderDeleted, same⟩
  refine ⟨alike, fun plain => ?_⟩
  rw [alike, samePK]
  exact namesAlike_plain lib upsert delete upsertXid deleteXid plain

namespace Sample

def bareUsers : RedisTableConfig where
  fullName := "public.users"
  insert := none
  update := none
  delete := none
  commands := []
  resolvedCommands := []
  insertCommands := []
  updateCommands := []
  deleteCommands := []

def storedRow (pk : String) : WriteEntry (List UInt8) := { updatedRow with pk := pk }

def deletedRow (pk : String) : WriteEntry (List UInt8) :=
  { updatedRow with pk := pk, kind := .delete }

def bareWriter : RedisDynamicWriter :=
  createPipelineWriter (bareUsers.wellForm "public.users").1 ⟨false, ""⟩

theorem bareUsers_writesNothing : bareUsers.WritesNothing :=
  ⟨rfl, not_not.mpr rfl, not_not.mpr rfl, not_not.mpr rfl⟩

end Sample

open Redis.Sample

/-- A row with the key `%pk%` is deleted where it is stored. -/
theorem default_delete_mirrors_literal :
    ∃ key, bareWriter.WritesKey Sample.lib (storedRow "%pk%") 0 7 "HSET" key ∧
      bareWriter.WritesKey Sample.lib (deletedRow "%pk%") 0 8 "DEL" key := by
  have stores : (storedRow "%pk%").kind ≠ .delete := by decide
  have deletes : (deletedRow "%pk%").kind = .delete := rfl
  have plain : Plain bareUsers.fullName.toList := ⟨by decide, by decide⟩
  exact ((default_delete_mirrors_iff bareUsers_writesNothing "public.users" ⟨false, ""⟩
    Sample.lib stores deletes rfl rfl ⟨⟨rfl, rfl⟩, rfl⟩ 0 7 0 8).2 plain).mpr rfl

/-- Any other row is stored under its key, and another is deleted. -/
theorem default_delete_misses_row :
    bareUsers.WritesNothing ∧
    bareWriter.WritesKey Sample.lib (storedRow "1") 0 7 "HSET" "public.users:1" ∧
    bareWriter.WritesKey Sample.lib (deletedRow "1") 0 8 "DEL" "public.users:%pk%" :=
  ⟨bareUsers_writesNothing, ⟨_, _, rfl⟩, _, _, rfl⟩

end PgWalk.Redis
