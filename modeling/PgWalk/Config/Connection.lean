import PgWalk.Redis.Pattern

/-! Multi-host connection options: the texts they are parsed from and joined to. -/

namespace PgWalk

open List

open Redis (splitCommas)

structure TLSOptions where
  cert : String
  key : String
  rootCert : String
deriving DecidableEq

structure ConnectionOpts where
  host : String
  port : String
  database : String
  user : String
  password : String
  tls : TLSOptions
deriving DecidableEq

/-- Options whose host and port hold several values, with the parsed list. -/
structure ConnectionOptsMany extends ConnectionOpts where
  opts : Option (List ConnectionOpts)
deriving DecidableEq

namespace ConnectionOptsMany

variable {com : ConnectionOptsMany} {hosts ports row : List String} {text : String}
  {texts : List String} {i : Nat}

def single (com : ConnectionOptsMany) (host port : String) : ConnectionOpts :=
  { com.toConnectionOpts with host, port }

/-- The pieces of a comma separated text that are not blank, trimmed. -/
def trimmed (text : String) : List String :=
  ((splitCommas text).filter (trimSpace · ≠ "")).map trimSpace

/-- The port that the loop reads for the host at a position. -/
def portAt (ports : List String) (i : Nat) : Option String :=
  if ports.length > 1 then ports[i]? else ports[0]?

/-- The loop over the hosts, from the one at a position on. -/
def pairOpts (com : ConnectionOptsMany) (ports : List String) :
    Nat → List String → Except Fault (List ConnectionOpts)
  | _, [] => .ok []
  | i, host :: hosts =>
    match portAt ports i with
    | none => .error (.panic "index out of range")
    | some port => (com.single host port :: ·) <$> pairOpts com ports (i + 1) hosts

def parseOpts (com : ConnectionOptsMany) : Except Fault (List ConnectionOpts) :=
  if com.host = "" then .error (.error "no hosts provided")
  else if com.port = "" then .error (.error "no ports provided")
  else
    let hosts := trimmed com.host
    let ports := trimmed com.port
    if hosts.length ≠ ports.length ∧ ports.length > 1 then
      .error (.error "number of ports should match number of hosts or should be exactly one")
    else pairOpts com ports 0 hosts

def joinOpts (opts : List ConnectionOpts) : Except Fault (Option ConnectionOptsMany) :=
  match opts with
  | [] => .ok none
  | [first] => .ok (some { first with opts := none })
  | first :: _ =>
    if opts.any fun opt => opt.database ≠ first.database || opt.user ≠ first.user ||
        opt.password ≠ first.password then
      .error (.error "database, user and password must be the same")
    else
      .ok (some { first with
        host := String.intercalate "," (opts.map (·.host))
        port := String.intercalate "," (opts.map (·.port))
        opts := some opts })

/-- One option per host, with the port at its position or the only one. -/
def Paired (com : ConnectionOptsMany) (opts : List ConnectionOpts) : Prop :=
  let hosts := trimmed com.host
  let ports := trimmed com.port
  hosts ≠ [] ∧ ∃ row, row.length = hosts.length ∧
    (row = ports ∨ ∃ port, ports = [port] ∧ row = hosts.map fun _ => port) ∧
    opts = List.zipWith com.single hosts row

/-- Texts with no host, or a host that lacks its port, once trimmed. -/
def Blank (com : ConnectionOptsMany) : Prop :=
  com.host ≠ "" ∧ com.port ≠ "" ∧ (trimmed com.port).length ≤ 1 ∧
    (trimmed com.host = [] ∨ trimmed com.port = [])

/-- A text that is trimmed, not blank and free of commas. -/
def Piece (text : String) : Prop :=
  ',' ∉ text.toList ∧ text ≠ "" ∧ trimSpace text = text

theorem trimmed_intercalate (pieces : ∀ text ∈ texts, Piece text) (filled : texts ≠ []) :
    trimmed (String.intercalate "," texts) = texts := by
  have split : splitCommas (String.intercalate "," texts) = texts := by
    rw [splitCommas, String.toList_intercalate]
    rw [show ",".toList = [','] from rfl, splitOn_intercalate ','
      (by simpa using fun text own => (pieces text own).1) (by simpa using filled)]
    simp
  rw [trimmed, split, filter_eq_self.mpr fun text own => by
    simpa [(pieces text own).2.2] using (pieces text own).2.1]
  simpa using map_congr_left (g := id) fun text own => (pieces text own).2.2

theorem pairOpts_eq (sized : row.length = hosts.length)
    (read : ∀ k < hosts.length, portAt ports (i + k) = row[k]?) :
    pairOpts com ports i hosts = .ok (List.zipWith com.single hosts row) := by
  -- The row is consumed together with the hosts, one port at a time.
  induction hosts generalizing i row with
  | nil => rfl
  | cons host hosts ih =>
    obtain _ | ⟨port, row⟩ := row
    · cases sized
    · have first := read 0 (by simp)
      have rest := ih (i := i + 1) (Nat.succ.inj sized) fun k inside => by
        simpa [Nat.add_assoc, Nat.add_comm 1] using read (k + 1) (by simpa using inside)
      simp [pairOpts, show portAt ports i = some port by simpa using first, rest]

/-- Hosts with a row of ports for them are all parsed. -/
theorem parseOpts_row (hosted : com.host ≠ "") (ported : com.port ≠ "")
    (sized : row.length = (trimmed com.host).length)
    (taken : row = trimmed com.port ∨
      ∃ port, trimmed com.port = [port] ∧ row = (trimmed com.host).map fun _ => port) :
    parseOpts com = .ok (List.zipWith com.single (trimmed com.host) row) := by
  rw [parseOpts, if_neg hosted, if_neg ported]
  obtain rfl | ⟨port, only, rfl⟩ := taken
  · rw [if_neg (by simp [sized])]
    refine pairOpts_eq sized fun k inside => ?_
    rw [portAt, Nat.zero_add]
    split
    · rfl
    · -- With one port only the first position can be asked for.
      rw [show k = 0 by omega]
  · rw [if_neg (by simp [only])]
    exact pairOpts_eq sized fun k inside => by simp [portAt, only, inside]

theorem parseOpts_blank (blank : Blank com) :
    parseOpts com = .ok [] ∧ trimmed com.host = [] ∨
      parseOpts com = .error (.panic "index out of range") := by
  obtain ⟨hosted, ported, few, missing⟩ := blank
  rw [parseOpts, if_neg hosted, if_neg ported, if_neg fun more => by omega]
  cases hosts : trimmed com.host with
  | nil => exact .inl ⟨rfl, rfl⟩
  | cons host rest =>
    have none : trimmed com.port = [] := missing.resolve_left (by simp [hosts])
    exact .inr (by simp [pairOpts, portAt, none])

/-- Options that are not blank fail, or pair every host. -/
theorem parseOpts_paired (full : ¬ Blank com) :
    (∃ err, parseOpts com = .error (.error err)) ∨
      ∃ opts, parseOpts com = .ok opts ∧ Paired com opts := by
  -- Every host gets its own port, or the only one there is.
  by_cases fits : com.host ≠ "" ∧ com.port ≠ "" ∧
      ((trimmed com.port).length ≤ 1 ∨ (trimmed com.port).length = (trimmed com.host).length)
  · obtain ⟨hosted, ported, sized⟩ := fits
    obtain ⟨filled, row, same, taken⟩ : trimmed com.host ≠ [] ∧ ∃ row : List String,
        row.length = (trimmed com.host).length ∧ (row = trimmed com.port ∨
          ∃ port, trimmed com.port = [port] ∧ row = (trimmed com.host).map fun _ => port) := by
      obtain several | few := Nat.lt_or_ge 1 (trimmed com.port).length
      · have same := sized.resolve_left several.not_ge
        exact ⟨ne_nil_of_length_pos (by omega), _, same, .inl rfl⟩
      · obtain ⟨filled, some_port⟩ := not_or.mp fun missing => full ⟨hosted, ported, few, missing⟩
        obtain ⟨port, only⟩ := length_eq_one_iff.mp
          (few.antisymm (length_pos_of_ne_nil some_port))
        exact ⟨filled, _, by simp, .inr ⟨port, only, rfl⟩⟩
    exact .inr ⟨_, parseOpts_row hosted ported same taken, filled, row, same, taken, rfl⟩
  · left
    simp only [parseOpts]
    split_ifs
    · exact ⟨_, rfl⟩
    · exact ⟨_, rfl⟩
    · exact ⟨_, rfl⟩
    · exact absurd ⟨‹_›, ‹_›, by omega⟩ fits

/-- Options that differ in their host and port only, each a piece. -/
def Joinable (opts : List ConnectionOpts) : Prop :=
  2 ≤ opts.length ∧ (∀ opt ∈ opts, Piece opt.host ∧ Piece opt.port) ∧
    ∀ a ∈ opts, ∀ b ∈ opts, a = { b with host := a.host, port := a.port }

/-- Joined options are parsed back as they were. -/
theorem joinOpts_parse {opts : List ConnectionOpts} (joinable : Joinable opts) :
    ∃ many, joinOpts opts = .ok (some many) ∧ parseOpts many = .ok opts := by
  -- A joined text is not empty, for the empty text has no pieces.
  obtain ⟨several, pieces, same⟩ := joinable
  obtain _ | ⟨first, _ | ⟨second, rest⟩⟩ := opts
  · simp at several
  · simp at several
  generalize shape : first :: second :: rest = opts at *
  have filled : opts ≠ [] := by simp [← shape]
  have own : first ∈ opts := by simp [← shape]
  have agrees : opts.any (fun opt => opt.database ≠ first.database || opt.user ≠ first.user ||
      opt.password ≠ first.password) = false := by
    refine List.any_eq_false.mpr fun opt member => ?_
    rw [same opt member first own]
    simp
  refine ⟨_, by rw [← shape, joinOpts, shape, if_neg (by simpa using agrees)]; simp, ?_⟩
  have parts {field : ConnectionOpts → String} (clean : ∀ opt ∈ opts, Piece (field opt)) :
      trimmed (String.intercalate "," (opts.map field)) = opts.map field :=
    trimmed_intercalate (by simpa using clean) (by simpa using filled)
  have hosts := parts fun opt own => (pieces opt own).1
  have ports := parts fun opt own => (pieces opt own).2
  have ne {field : ConnectionOpts → String}
      (all : trimmed (String.intercalate "," (opts.map field)) = opts.map field) :
      String.intercalate "," (opts.map field) ≠ "" := fun none => by
    rw [none, show trimmed "" = [] by decide] at all
    exact filled (map_eq_nil_iff.mp all.symm)
  rw [parseOpts_row (ne hosts) (ne ports) (by simp [hosts, ports]) (.inl rfl)]
  simp only [hosts, ports, zipWith_map, zipWith_self]
  simpa [single] using
    map_congr_left (g := id) fun opt member => (same opt member first own).symm

/-- Parsing pairs hosts with ports unless one is blank, and undoes joining. -/
theorem parseOpts_pairwise (com : ConnectionOptsMany) (opts : List ConnectionOpts) :
    (((∃ err, parseOpts com = .error (.error err)) ∨
      ∃ opts, parseOpts com = .ok opts ∧ Paired com opts) ↔ ¬ Blank com) ∧
    (Joinable opts → ∃ many, joinOpts opts = .ok (some many) ∧ parseOpts many = .ok opts) := by
  refine ⟨⟨fun paired blank => ?_, parseOpts_paired⟩, joinOpts_parse⟩
  -- Blank texts give a panic, or no option at all.
  obtain ⟨nothing, empty⟩ | panics := parseOpts_blank blank
  · obtain ⟨err, failed⟩ | ⟨opts, -, filled, -⟩ := paired
    · cases nothing.symm.trans failed
    · exact filled empty
  · obtain ⟨err, failed⟩ | ⟨opts, parsed, -⟩ := paired
    · cases panics.symm.trans failed
    · cases panics.symm.trans parsed

/-- Two hosts with a port each are joined and read back. -/
theorem parseOpts_pairwise_joined : ∃ one two : ConnectionOpts, one.host ≠ two.host ∧
    ∃ many, joinOpts [one, two] = .ok (some many) ∧ parseOpts many = .ok [one, two] :=
  ⟨⟨"a", "1", "", "", "", ⟨"", "", ""⟩⟩, ⟨"b", "2", "", "", "", ⟨"", "", ""⟩⟩, by decide,
    (parseOpts_pairwise ⟨⟨"", "", "", "", "", ⟨"", "", ""⟩⟩, none⟩ _).2
      ⟨by decide, by simp [Piece]; decide, by simp⟩⟩

/-- One host beside a port of commas only indexes an empty list. -/
theorem parseOpts_pairwise_panics :
    ∃ com, parseOpts com = .error (.panic "index out of range") ∧ com.host = "a" ∧ com.port = "," :=
  ⟨⟨⟨"a", ",", "", "", "", ⟨"", "", ""⟩⟩, none⟩, by decide, rfl, rfl⟩

end ConnectionOptsMany
end PgWalk
