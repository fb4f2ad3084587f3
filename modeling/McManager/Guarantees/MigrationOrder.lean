import McManager.Infrastructure.Migrations
import Mathlib.Tactic.Common

namespace McManager.Migrations

open Framework

/-- The statements that `_execute_script` finds in a text, from a place in it on. -/
def statements (complete : String → Bool) : List Char → List Char → List String
  | statement, [] =>
    if strip statement = [] then [] else [String.ofList (strip statement)]
  | statement, character :: rest =>
    if character = ';' ∧ complete (String.ofList (statement ++ [character])) = true then
      String.ofList (statement ++ [character]) :: statements complete [] rest
    else
      statements complete (statement ++ [character]) rest

def Migration.statements (complete : String → Bool) (m : Migration) : List String :=
  Migrations.statements complete [] (m.file.text.getD "").toList

def Directory.migrations (d : Directory) : List Migration := migrationFiles (d.files.getD [])

/-- The files of a version. -/
def Directory.filesOf (d : Directory) (version : Int) : List Migration :=
  d.migrations.filter fun m => m.version = version

/-- All that there is to take effect of the files of a version. -/
def events (complete : String → Bool) (version : Int) (files : List Migration) : List Event :=
  (files.flatMap (·.statements complete)).map (.ran version) ++ [.recorded version]

section

variable {ρ Ω : Type} (sqlite : Sqlite ρ Ω)

/-- The versions `done` have been applied, each of them whole and once, in this order and after no
higher one, and nothing else. -/
structure Applied (boots : List Directory) (db : Db ρ) (done : List (Int × List Migration)) :
    Prop where
  whole : db.journal = done.flatMap fun b => events sqlite.complete b.1 b.2
  own : ∀ b ∈ done, ∃ d ∈ boots, b.2 = d.filesOf b.1
  recorded : db.tables.versions = done.map (·.1)
  ascending : (done.map (·.1)).Pairwise (· < ·)

/-- Every version is applied whole, once and in order, up to some point of the list of files, and
to its end once `run_migrations` has returned. -/
structure InOrder (s : State ρ) : Prop where
  applied : ∃ done, Applied sqlite s.boots s.conn.committed done
  upto : ∀ d, s.boots.head? = some d → ∃ n, ∀ v,
    v ∈ s.conn.committed.tables.versions ↔ v ∈ (d.migrations.take n).map (·.version)
  returned : s.stage matches .serving → ∀ d, s.boots.head? = some d → ∀ m ∈ d.migrations,
    m.version ∈ s.conn.committed.tables.versions

variable {sqlite}

/-- The statement changes or reads rows, and leaves the entries of `schema_migrations` alone. -/
def Contained : Effect ρ Ω → Prop
  | .change _ f => ∀ world t t', f world t = .ok t' → t'.versions = t.versions
  | _ => False

variable (sqlite)

/-- The directory of a boot: no two files of one version, a file for every version that has been
applied, no other version below one of these, and no script that controls transactions or touches
the entries of `schema_migrations`. -/
structure Extends (db : Db ρ) (d : Directory) : Prop where
  distinct : (d.migrations.map (·.version)).Nodup
  kept : ∀ v ∈ db.tables.versions, ∃ m ∈ d.migrations, m.version = v
  above : ∀ m ∈ d.migrations, m.version ∉ db.tables.versions →
    ∀ v ∈ db.tables.versions, v < m.version
  contained : ∀ m ∈ d.migrations, m.version ∉ db.tables.versions →
    ∀ sql ∈ m.statements sqlite.complete, Contained (sqlite.effect sql)

/-- A process that does not run boots with a directory that extends what has been applied. -/
def Orderly (s : State ρ) : Move ρ Ω → Prop
  | .boot d => s.stage matches .off → Extends sqlite s.conn.committed d
  | _ => True

/-- A run from a database without `schema_migrations`, all of whose moves meet `ok`. -/
inductive Run (ok : State ρ → Move ρ Ω → Prop) : State ρ → Prop
  | fresh (rows : ρ) : Run ok (.fresh rows)
  | step {s : State ρ} (m : Move ρ Ω) : Run ok s → ok s m → Run ok (s.step sqlite m)

end

/-- The statements are the whole text in order, but for blanks around what follows the last `;`
that ends one. -/
theorem statements_join (complete : String → Bool) (statement text : List Char) :
    ∃ front last, statement ++ text = front ++ last ∧
      (statements complete statement text).flatMap String.toList = front ++ strip last := by
  induction text generalizing statement with
  | nil =>
    refine ⟨[], statement, by simp, ?_⟩
    rw [statements]
    by_cases h : strip statement = []
    · simp [h]
    · simp [h]
  | cons c rest ih =>
    rw [statements]
    by_cases h : c = ';' ∧ complete (String.ofList (statement ++ [c])) = true
    · obtain ⟨front, last, whole, parts⟩ := ih []
      refine ⟨statement ++ c :: front, last, ?_, ?_⟩
      · rw [List.nil_append] at whole
        simp [whole]
      · rw [if_pos h, List.flatMap_cons, parts]
        simp
    · obtain ⟨front, last, whole, parts⟩ := ih (statement ++ [c])
      refine ⟨front, last, ?_, ?_⟩
      · rw [← whole]
        simp
      · rw [if_neg h, parts]

/-- `_execute_script` runs these statements one after the other. -/
theorem executeScript_eq (complete : String → Bool) (version : Int) (statement text : List Char) :
    executeScript complete version statement text =
      Program.each (fun sql => perform (.execute version sql))
        (statements complete statement text) := by
  induction text generalizing statement with
  | nil =>
    simp only [executeScript, statements]
    by_cases h : strip statement = []
    · simp [h, Program.each]
    · rw [if_neg h, if_neg h, Program.each]
      exact (Program.bind_ret _).symm
  | cons c rest ih =>
    simp only [executeScript, statements]
    by_cases h : c = ';' ∧ complete (String.ofList (statement ++ [c])) = true
    · rw [if_pos h, if_pos h, Program.each, ih]
    · rw [if_neg h, if_neg h, ih]

section

variable {ρ Ω : Type} {sqlite : Sqlite ρ Ω} {P : Db ρ → Prop}

/-- The rule of programs during which `P` always holds of what is committed. -/
def always (sqlite : Sqlite ρ Ω) (P : Db ρ → Prop) (c : Command) (x : Connection (Db ρ))
    (Q : Except Failure (Reply c) → Connection (Db ρ) → Prop) : Prop :=
  P x.committed ∧ ∀ o, Q (act sqlite o x c).1 (act sqlite o x c).2

theorem always_monotone : Program.Monotone (always sqlite P) :=
  fun _ _ _ _ weaken h => ⟨h.1, fun o => weaken _ _ (h.2 o)⟩

/-- The command goes through with what `S` says, or fails and changes nothing that is committed. -/
def Attempts (sqlite : Sqlite ρ Ω) (c : Command) (x : Connection (Db ρ))
    (S : Reply c → Connection (Db ρ) → Prop) : Prop :=
  ∀ o, (∃ a y, act sqlite o x c = (.ok a, y) ∧ S a y) ∨
    ∃ e y, act sqlite o x c = (.error e, y) ∧ y.committed = x.committed

/-- One command, with what follows it. -/
theorem Attempts.post {α : Type} {c : Command} {k : Reply c → Prog α} {x : Connection (Db ρ)}
    {S : Reply c → Connection (Db ρ) → Prop} (h : Attempts sqlite c x S)
    {Q : Except Failure α → Connection (Db ρ) → Prop} (now : P x.committed)
    (next : ∀ a y, S a y → (k a).post (always sqlite P) Q y)
    (left : ∀ e y, y.committed = x.committed → Q (.error e) y) :
    ((perform c).bind k).post (always sqlite P) Q x := by
  refine ⟨now, ?_⟩
  intro o
  rcases h o with ⟨a, y, through, hS⟩ | ⟨e, y, failed, kept⟩
  · rw [through]
    exact next a y hS
  · rw [failed]
    exact left e y kept

@[simp] theorem committed_failed (f : Fault) (x : Connection (Db ρ)) :
    (failed f x).committed = x.committed := by
  unfold failed
  split
  · rfl
  · rfl

/-- A statement goes through, or the outside world makes it fail. -/
theorem unlessFault_cases {α : Type} (o : Outcome Ω) (x : Connection (Db ρ))
    (r : Except Failure α × Connection (Db ρ)) :
    unlessFault o x r = r ∨ ∃ e y, unlessFault o x r = (.error e, y) ∧
      y.committed = x.committed := by
  unfold unlessFault
  cases o.fault with
  | none => exact .inl rfl
  | some fault => exact .inr ⟨_, _, rfl, committed_failed fault x⟩

/-- A command that nothing but the outside world can make fail. -/
theorem attempts_unlessFault {c : Command} {x y : Connection (Db ρ)} {a : Reply c}
    {S : Reply c → Connection (Db ρ) → Prop}
    (h : ∀ o, act sqlite o x c = unlessFault o x (.ok a, y)) (hS : S a y) :
    Attempts sqlite c x S := by
  intro o
  rw [h]
  rcases unlessFault_cases o x (.ok a, y) with through | failed
  · exact .inl ⟨a, y, through, hS⟩
  · exact .inr failed

variable {d w : Db ρ}

theorem attempts_begin (d : Db ρ) :
    Attempts sqlite .begin (.closed d) fun _ y => y = ⟨d, some d⟩ :=
  attempts_unlessFault (fun _ => rfl) rfl

theorem attempts_commit (d w : Db ρ) :
    Attempts sqlite .commit ⟨d, some w⟩ fun _ y => y = .closed w :=
  attempts_unlessFault (fun _ => rfl) rfl

theorem attempts_rollback (x : Connection (Db ρ)) :
    Attempts sqlite .rollback x fun _ y => y = .closed x.committed :=
  attempts_unlessFault (fun _ => rfl) rfl

theorem attempts_execute {version : Int} {sql : String}
    (contained : Contained (sqlite.effect sql)) :
    Attempts sqlite (.execute version sql) ⟨d, some w⟩ fun _ y =>
      ∃ t, y = ⟨d, some ⟨t, w.journal ++ [.ran version sql]⟩⟩ ∧
        t.versions = w.tables.versions := by
  intro o
  rcases unlessFault_cases o ⟨d, some w⟩ (execute sqlite version sql o.world ⟨d, some w⟩)
    with through | failed
  · rw [act, through]
    cases he : sqlite.effect sql with
    | change opens f =>
      rw [he] at contained
      cases hf : f o.world w.tables with
      | error fault =>
        refine .inr ⟨_, _, by simp only [execute, he, Connection.view_open, hf]; rfl, ?_⟩
        cases opens with
        | false => exact committed_failed fault _
        | true => exact committed_failed fault _
      | ok t =>
        refine .inl ⟨(), _, ?_, t, rfl, contained o.world w.tables t hf⟩
        cases opens with
        | false => simp [execute, he, hf]
        | true => simp [execute, he, hf, Connection.opening]
    | begin => rw [he] at contained; exact contained.elim
    | commit => rw [he] at contained; exact contained.elim
    | rollback => rw [he] at contained; exact contained.elim
  · exact .inr failed

theorem attempts_insert (version : Int) (name : String) :
    Attempts sqlite (.insert version name) ⟨d, some w⟩ fun _ y =>
      ∃ t, y = ⟨d, some ⟨t, w.journal ++ [.recorded version]⟩⟩ ∧
        t.versions = w.tables.versions ++ [version] := by
  intro o
  rcases unlessFault_cases o ⟨d, some w⟩ (insert version name o.now ⟨d, some w⟩)
    with through | failed
  · rw [act, through, insert]
    by_cases large : version < -2 ^ 63 ∨ 2 ^ 63 ≤ version
    · rw [if_pos large]
      exact .inr ⟨_, _, rfl, rfl⟩
    · rw [if_neg large]
      cases ledger : w.tables.ledger with
      | none =>
        simp only [Connection.view_open, ledger]
        exact .inr ⟨_, _, rfl, rfl⟩
      | some entries =>
        by_cases known : version ∈ entries.map (·.version)
        · simp only [Connection.view_open, ledger, if_pos known]
          exact .inr ⟨_, _, rfl, rfl⟩
        · simp only [Connection.view_open, ledger, if_neg known]
          refine .inl ⟨(), _, rfl, _, rfl, ?_⟩
          simp [Tables.versions, ledger]
  · exact .inr failed

theorem attempts_readText (m : Migration) (x : Connection (Db ρ)) :
    Attempts sqlite (.readText m.file) x fun sql y => m.file.text = some sql ∧ y = x := by
  intro o
  cases text : m.file.text with
  | none => exact .inr ⟨.other "invalid start byte", x, by simp only [act, text], rfl⟩
  | some sql =>
    cases fault : o.fault with
    | none => exact .inl ⟨sql, x, by simp only [act, text, fault], rfl, rfl⟩
    | some f => exact .inr ⟨.other f.text, x, by simp only [act, text, fault], rfl⟩

/-- The statements of a script, in an open transaction: all of them have been run, or nothing that
is committed has changed. -/
theorem post_statements (now : P d) (version : Int) (sqls : List String)
    (contained : ∀ sql ∈ sqls, Contained (sqlite.effect sql)) (w : Db ρ) :
    (Program.each (fun sql => perform (.execute version sql)) sqls : Prog Unit).post
      (always sqlite P) (fun r y => match r with
        | .ok _ => ∃ t, y = ⟨d, some ⟨t, w.journal ++ sqls.map (.ran version)⟩⟩ ∧
          t.versions = w.tables.versions
        | .error _ => y.committed = d) ⟨d, some w⟩ := by
  induction sqls generalizing w with
  | nil => exact ⟨w.tables, by simp, rfl⟩
  | cons sql sqls ih =>
    rw [Program.each]
    refine (attempts_execute (contained sql (by simp))).post now ?_ (fun _ _ kept => kept)
    intro a y h
    obtain ⟨t, rfl, same⟩ := h
    refine Program.post_mono always_monotone ?_ _ _ (ih (fun s hs => contained s (by simp [hs])) _)
    intro r y h
    cases r with
    | error e => exact h
    | ok a =>
      obtain ⟨t', rfl, same'⟩ := h
      exact ⟨t', by simp, same'.trans same⟩

/-- What follows a failure changes nothing that is committed. -/
theorem post_recover (m : Migration) (e : Failure) {x : Connection (Db ρ)}
    (now : P x.committed) :
    (recover m e).post (always sqlite P) (fun r y => match r with
      | .ok _ => False
      | .error _ => y.committed = x.committed) x := by
  cases e with
  | sqlite exc =>
    refine ⟨now, ?_⟩
    intro o
    cases open' : x.working.isSome with
    | false =>
      simp only [act, open']
      exact rfl
    | true =>
      simp only [act, open']
      refine (attempts_rollback x).post now ?_ (fun _ _ kept => kept)
      intro a y h
      subst h
      exact rfl
  | persistence text => exact rfl
  | other text => exact rfl

/-- The guarded block of `_apply_one`: the migration and its entry are committed together, or
nothing is. -/
theorem post_block (now : P d) (m : Migration)
    (contained : ∀ sql ∈ m.statements sqlite.complete, Contained (sqlite.effect sql)) :
    ((perform .begin).bind fun _ =>
      (executeScript sqlite.complete m.version [] (m.file.text.getD "").toList).bind fun _ =>
        (perform (.insert m.version m.name)).bind fun _ => perform .commit : Prog Unit).post
      (always sqlite P) (fun r y => match r with
        | .ok _ => ∃ t, y = .closed ⟨t, d.journal ++ events sqlite.complete m.version [m]⟩ ∧
          t.versions = d.tables.versions ++ [m.version]
        | .error _ => y.committed = d) (.closed d) := by
  refine (attempts_begin d).post now ?_ (fun _ _ kept => kept)
  intro a y h
  subst h
  rw [executeScript_eq, Program.post_bind]
  refine Program.post_mono always_monotone ?_ _ _
    (post_statements now m.version (m.statements sqlite.complete) contained d)
  intro r y h
  cases r with
  | error e => exact h
  | ok a =>
    obtain ⟨t, rfl, same⟩ := h
    refine (attempts_insert m.version m.name).post now ?_ (fun _ _ kept => kept)
    intro a y h
    obtain ⟨t', rfl, added⟩ := h
    rw [← Program.bind_ret (perform .commit)]
    refine (attempts_commit d _).post now ?_ (fun _ _ kept => kept)
    intro a y h
    subst h
    refine ⟨t', by simp [events], ?_⟩
    rw [added, same]

/-- `_apply_one` commits the migration and its entry together, or raises and commits nothing. -/
theorem post_applyOne (now : P d) (m : Migration)
    (contained : ∀ sql ∈ m.statements sqlite.complete, Contained (sqlite.effect sql)) :
    (applyOne sqlite.complete m).post (always sqlite P) (fun r y => match r with
      | .ok _ => ∃ t, y = .closed ⟨t, d.journal ++ events sqlite.complete m.version [m]⟩ ∧
        t.versions = d.tables.versions ++ [m.version]
      | .error _ => y.committed = d) (.closed d) := by
  refine (attempts_readText m (.closed d)).post now ?_ (fun _ _ kept => kept)
  intro sql y h
  obtain ⟨text, rfl⟩ := h
  have block := post_block now m contained
  rw [text] at block
  refine (Program.post_handle _ _ _ _).mpr ?_
  refine Program.post_mono always_monotone ?_ _ _ block
  intro r y h
  cases r with
  | ok a => exact h
  | error e =>
    have committed : y.committed = d := h
    refine Program.post_mono always_monotone ?_ _ _ (post_recover m e (committed ▸ now))
    intro r z hz
    cases r with
    | ok a => exact hz.elim
    | error e => exact hz.trans committed

end

section Files

/-- A list splits where a property that is passed down ends. -/
theorem filter_append_filter {α : Type} {p : α → Bool} {R : α → α → Prop} {l : List α}
    (sorted : l.Pairwise R) (down : ∀ a ∈ l, ∀ b ∈ l, R a b → p b = true → p a = true) :
    l.filter p ++ l.filter (fun a => !p a) = l := by
  induction l with
  | nil => rfl
  | cons a l ih =>
    obtain ⟨first, tail⟩ := List.pairwise_cons.mp sorted
    have rest := ih tail fun b hb c hc => down b (by simp [hb]) c (by simp [hc])
    cases ha : p a with
    | true => simp [ha, rest]
    | false =>
      have none : l.filter p = [] := by
        rw [List.filter_eq_nil_iff]
        intro b hb hp
        rw [down a (by simp) b (by simp [hb]) (first b hb) hp] at ha
        exact Bool.noConfusion ha
      have all : l.filter (fun a => !p a) = l := by rwa [none, List.nil_append] at rest
      simp [ha, none, all]

/-- The files stand in the order of their versions. -/
theorem migrationFiles_sorted (files : List File) :
    (migrationFiles files).Pairwise fun a b => a.version ≤ b.version := by
  have : Std.Total fun a b : Migration => a.version ≤ b.version := ⟨fun a b => le_total _ _⟩
  have : IsTrans Migration fun a b => a.version ≤ b.version := ⟨fun _ _ _ => le_trans⟩
  exact List.pairwise_insertionSort _ _

theorem Directory.ascending {dir : Directory}
    (distinct : (dir.migrations.map (·.version)).Nodup) :
    dir.migrations.Pairwise fun a b => a.version < b.version := by
  have sorted := migrationFiles_sorted (dir.files.getD [])
  have apart : dir.migrations.Pairwise fun a b => a.version ≠ b.version :=
    List.pairwise_map.mp distinct
  refine (sorted.and apart).imp ?_
  intro a b h
  exact lt_of_le_of_ne h.1 h.2

theorem Directory.filesOf_eq {dir : Directory}
    (distinct : (dir.migrations.map (·.version)).Nodup) {m : Migration}
    (hm : m ∈ dir.migrations) : dir.filesOf m.version = [m] := by
  have none : ∀ l : List Migration, m.version ∉ l.map (·.version) →
      l.filter (fun k => k.version = m.version) = [] := by
    intro l hl
    rw [List.filter_eq_nil_iff]
    intro k hk same
    exact hl (List.mem_map.mpr ⟨k, hk, by simpa using same⟩)
  obtain ⟨front, rest, split⟩ := List.append_of_mem hm
  rw [split, List.map_append, List.map_cons, List.nodup_append] at distinct
  obtain ⟨-, tail, apart⟩ := distinct
  rw [Directory.filesOf, split, List.filter_append, List.filter_cons_of_pos (by simp),
    none rest (List.nodup_cons.mp tail).1, none front (fun h => apart _ h _ (by simp) rfl)]
  rfl

end Files

section Boot

variable {ρ Ω : Type} {sqlite : Sqlite ρ Ω} {boots : List Directory} {dir : Directory}

/-- The versions of these files have been applied. -/
structure Upto (sqlite : Sqlite ρ Ω) (boots : List Directory) (front : List Migration)
    (db : Db ρ) : Prop where
  applied : ∃ done, Applied sqlite boots db done
  versions : ∀ v, v ∈ db.tables.versions ↔ v ∈ front.map (·.version)

/-- The versions up to some point of the list of files have been applied. -/
def Partly (sqlite : Sqlite ρ Ω) (boots : List Directory) (dir : Directory) (db : Db ρ) : Prop :=
  ∃ front rest, dir.migrations = front ++ rest ∧ Upto sqlite boots front db

/-- One more migration. -/
theorem Upto.snoc {front rest : List Migration} {m : Migration} {d : Db ρ} {t : Tables ρ}
    (h : Upto sqlite boots front d) (mem : dir ∈ boots)
    (distinct : (dir.migrations.map (·.version)).Nodup)
    (split : dir.migrations = front ++ m :: rest)
    (added : t.versions = d.tables.versions ++ [m.version]) :
    Upto sqlite boots (front ++ [m])
      ⟨t, d.journal ++ events sqlite.complete m.version [m]⟩ := by
  obtain ⟨done, applied⟩ := h.applied
  have below : ∀ v ∈ done.map (·.1), v < m.version := by
    intro v hv
    rw [← applied.recorded, h.versions] at hv
    obtain ⟨k, hk, rfl⟩ := List.mem_map.mp hv
    have ascending := dir.ascending distinct
    rw [split] at ascending
    exact (List.pairwise_append.mp ascending).2.2 k hk m (by simp)
  have only : dir.filesOf m.version = [m] := dir.filesOf_eq distinct (by rw [split]; simp)
  refine ⟨⟨done ++ [(m.version, [m])], ?_, ?_, ?_, ?_⟩, ?_⟩
  · simp [applied.whole]
  · intro b hb
    rcases List.mem_append.mp hb with old | new
    · exact applied.own b old
    · rw [List.mem_singleton.mp new]
      exact ⟨dir, mem, only.symm⟩
  · simp [added, applied.recorded]
  · rw [List.map_append, List.pairwise_append]
    refine ⟨applied.ascending, by simp, ?_⟩
    intro v hv v' hv'
    rw [show v' = m.version by simpa using hv']
    exact below v hv
  · intro v
    simp [added, h.versions v]

/-- The loop over the pending migrations. -/
theorem post_pending (mem : dir ∈ boots) (distinct : (dir.migrations.map (·.version)).Nodup)
    {rest : List Migration} (contained : ∀ m ∈ rest, ∀ sql ∈ m.statements sqlite.complete,
      Contained (sqlite.effect sql)) (front : List Migration) (d : Db ρ)
    (split : dir.migrations = front ++ rest) (h : Upto sqlite boots front d) :
    (Program.each (applyOne sqlite.complete) rest).post
      (always sqlite (Partly sqlite boots dir)) (fun r y => match r with
        | .ok _ => ∃ d', y = .closed d' ∧ Upto sqlite boots dir.migrations d'
        | .error _ => Partly sqlite boots dir y.committed) (.closed d) := by
  induction rest generalizing front d with
  | nil =>
    rw [List.append_nil] at split
    exact ⟨d, rfl, split ▸ h⟩
  | cons m rest ih =>
    have now : Partly sqlite boots dir d := ⟨front, m :: rest, split, h⟩
    rw [Program.each, Program.post_bind]
    refine Program.post_mono always_monotone ?_ _ _
      (post_applyOne now m (contained m (by simp)))
    intro r y hy
    cases r with
    | error e =>
      have kept : y.committed = d := hy
      exact kept ▸ now
    | ok a =>
      obtain ⟨t, rfl, added⟩ := hy
      have next := h.snoc mem distinct split added
      exact ih (fun k hk => contained k (by simp [hk])) (front ++ [m]) _ (by simp [split]) next

/-- `_applied_versions`. -/
theorem post_appliedVersions {P : Db ρ → Prop} {α : Type} {d : Db ρ} (now : P d)
    {k : List Int → Prog α} {Q : Except Failure α → Connection (Db ρ) → Prop}
    (next : (k d.tables.versions).post (always sqlite P) Q (.closed d))
    (left : ∀ e y, y.committed = d → Q (.error e) y) :
    (appliedVersions.bind k).post (always sqlite P) Q (.closed d) := by
  have table : Attempts sqlite .ledgerTable (.closed d)
      fun b y => b = d.tables.ledger.isSome ∧ y = .closed d :=
    attempts_unlessFault (fun _ => rfl) ⟨rfl, rfl⟩
  have versions : Attempts sqlite .versions (.closed d)
      fun vs y => vs = d.tables.versions ∧ y = .closed d :=
    attempts_unlessFault (fun _ => rfl) ⟨rfl, rfl⟩
  rw [appliedVersions, Program.bind_eq, Program.bind_assoc]
  refine table.post now ?_ left
  intro b y h
  obtain ⟨rfl, rfl⟩ := h
  cases ledger : d.tables.ledger with
  | none =>
    have empty : d.tables.versions = [] := by simp [Tables.versions, ledger]
    rw [empty] at next
    exact next
  | some entries =>
    refine versions.post now ?_ left
    intro vs y h
    obtain ⟨rfl, rfl⟩ := h
    exact next

theorem post_sweepForeignKeys {P : Db ρ → Prop} {d : Db ρ} (now : P d) :
    sweepForeignKeys.post (always sqlite P) (fun r y => match r with
      | .ok _ => y = .closed d
      | .error _ => y.committed = d) (.closed d) := by
  have check : Attempts sqlite .foreignKeyCheck (.closed d)
      fun _ y => y = .closed d := attempts_unlessFault (fun _ => rfl) rfl
  refine check.post now ?_ (fun _ _ kept => kept)
  intro violations y h
  subst h
  by_cases none : violations = []
  · simp only [none, ne_eq, not_true_eq_false, if_false]
    exact rfl
  · simp only [ne_eq, none, not_false_eq_true, if_true]
    exact rfl

/-- `run_migrations` applies what is left up to some point, and all of it if it returns. -/
theorem post_runMigrations (mem : dir ∈ boots) {d : Db ρ} {done : List (Int × List Migration)}
    (applied : Applied sqlite boots d done) (extending : Extends sqlite d dir) :
    (runMigrations sqlite.complete dir).post (always sqlite (Partly sqlite boots dir))
      (fun r y => match r with
        | .ok _ => ∃ d', y = .closed d' ∧ Upto sqlite boots dir.migrations d'
        | .error _ => Partly sqlite boots dir y.committed) (.closed d) := by
  let old := dir.migrations.filter fun m => decide (m.version ∈ d.tables.versions)
  let pending := dir.migrations.filter fun m => decide (m.version ∉ d.tables.versions)
  have split : dir.migrations = old ++ pending := by
    have down : ∀ a ∈ dir.migrations, ∀ b ∈ dir.migrations, a.version < b.version →
        decide (b.version ∈ d.tables.versions) = true →
          decide (a.version ∈ d.tables.versions) = true := by
      intro a ha b hb less hv
      by_contra missing
      have below := extending.above a ha (by simpa using missing) b.version (by simpa using hv)
      omega
    simpa [old, pending] using
      (filter_append_filter (dir.ascending extending.distinct) down).symm
  have upto : Upto sqlite boots old d := by
    refine ⟨⟨done, applied⟩, ?_⟩
    intro v
    constructor
    · intro hv
      obtain ⟨m, hm, rfl⟩ := extending.kept v hv
      exact List.mem_map.mpr ⟨m, by simp [old, hm, hv], rfl⟩
    · intro hv
      obtain ⟨m, hm, rfl⟩ := List.mem_map.mp hv
      simpa using (List.mem_filter.mp hm).2
  have now : Partly sqlite boots dir d := ⟨old, pending, split, upto⟩
  rw [runMigrations]
  cases hfiles : dir.files with
  | none => exact now
  | some files =>
    refine post_appliedVersions now ?_ (fun _ _ kept => kept ▸ now)
    have same : (migrationFiles files).filter (fun m => decide (m.version ∉ d.tables.versions)) =
        pending := by simp [pending, Directory.migrations, hfiles]
    simp only [Program.bind_eq, same]
    rw [Program.post_bind]
    refine Program.post_mono always_monotone ?_ _ _
      (post_pending mem extending.distinct ?_ old d split upto)
    · intro r y h
      cases r with
      | error e => exact h
      | ok a =>
        obtain ⟨d', rfl, all⟩ := h
        have now' : Partly sqlite boots dir d' := ⟨dir.migrations, [], by simp, all⟩
        refine Program.post_mono always_monotone ?_ _ _ (post_sweepForeignKeys now')
        intro r y h
        cases r with
        | error e =>
          have kept : y.committed = d' := h
          exact kept ▸ now'
        | ok a => exact ⟨d', h, all⟩
    · intro m hm
      have left := List.mem_filter.mp hm
      exact extending.contained m left.1 (by simpa using left.2)

/-- What holds of every state of an orderly run. -/
structure Good (sqlite : Sqlite ρ Ω) (s : State ρ) : Prop where
  applied : ∃ done, Applied sqlite s.boots s.conn.committed done
  upto : ∀ d, s.boots.head? = some d → Partly sqlite s.boots d s.conn.committed
  stage : match s.stage with
    | .off => s.conn = .closed s.conn.committed
    | .booting p => ∃ d, s.boots.head? = some d ∧
      p.post (always sqlite (Partly sqlite s.boots d)) (fun r y => match r with
        | .ok _ => ∃ d', y = .closed d' ∧ Upto sqlite s.boots d.migrations d'
        | .error _ => Partly sqlite s.boots d y.committed) s.conn
    | .serving => s.conn = .closed s.conn.committed ∧
      ∀ d, s.boots.head? = some d → Upto sqlite s.boots d.migrations s.conn.committed

theorem Good.fresh (rows : ρ) : Good sqlite (.fresh rows) where
  applied := ⟨[], by simp [State.fresh, Connection.closed], by simp,
    by simp [State.fresh, Connection.closed, Tables.versions], by simp⟩
  upto := by simp [State.fresh]
  stage := rfl

/-- A process that does not run, with what has been committed. -/
theorem Good.halted {s : State ρ} (good : Good sqlite s) :
    Good sqlite ⟨.closed s.conn.committed, s.boots, .off⟩ :=
  ⟨good.applied, good.upto, rfl⟩

/-- A call of `run_migrations` that keeps its part. -/
theorem Good.settle {conn : Connection (Db ρ)} {p : Prog Unit} (head : boots.head? = some dir)
    (h : p.post (always sqlite (Partly sqlite boots dir)) (fun r y => match r with
      | .ok _ => ∃ d', y = .closed d' ∧ Upto sqlite boots dir.migrations d'
      | .error _ => Partly sqlite boots dir y.committed) conn) :
    Good sqlite (State.settle conn boots p) := by
  have partly : ∀ {c : Db ρ}, Partly sqlite boots dir c →
      (∃ done, Applied sqlite boots c done) ∧
        ∀ d, boots.head? = some d → Partly sqlite boots d c := by
    intro c hc
    obtain ⟨front, rest, split, upto⟩ := hc
    refine ⟨upto.applied, ?_⟩
    intro d hd
    rw [head] at hd
    obtain rfl := Option.some.inj hd
    exact ⟨front, rest, split, upto⟩
  cases p with
  | ret a =>
    obtain ⟨d', rfl, all⟩ := h
    have now := partly ⟨dir.migrations, [], by simp, all⟩
    refine ⟨now.1, now.2, rfl, ?_⟩
    intro d hd
    obtain rfl := Option.some.inj (head.symm.trans hd)
    exact all
  | raise e =>
    have now := partly h
    exact ⟨now.1, now.2, rfl⟩
  | call c k =>
    have now := partly h.1
    exact ⟨now.1, now.2, dir, head, h⟩

/-- What has been applied stays applied when there are more boots. -/
theorem Applied.more {db : Db ρ} {done : List (Int × List Migration)}
    (h : Applied sqlite boots db done) (d : Directory) : Applied sqlite (d :: boots) db done where
  whole := h.whole
  own := by
    intro b hb
    obtain ⟨d', hd', same⟩ := h.own b hb
    exact ⟨d', List.mem_cons_of_mem _ hd', same⟩
  recorded := h.recorded
  ascending := h.ascending

/-- Only versions and journal matter. -/
theorem Applied.congr {db db' : Db ρ} {done : List (Int × List Migration)}
    (h : Applied sqlite boots db done) (journal : db'.journal = db.journal)
    (ledger : db'.tables.ledger = db.tables.ledger) : Applied sqlite boots db' done where
  whole := journal.trans h.whole
  own := h.own
  recorded := by
    rw [← h.recorded, Tables.versions, Tables.versions, ledger]
  ascending := h.ascending

theorem Upto.congr {front : List Migration} {db db' : Db ρ} (h : Upto sqlite boots front db)
    (journal : db'.journal = db.journal) (ledger : db'.tables.ledger = db.tables.ledger) :
    Upto sqlite boots front db' := by
  obtain ⟨done, applied⟩ := h.applied
  refine ⟨⟨done, applied.congr journal ledger⟩, ?_⟩
  intro v
  rw [← h.versions v, Tables.versions, Tables.versions, ledger]

theorem Good.step {s : State ρ} (good : Good sqlite s) (m : Move ρ Ω) (ok : Orderly sqlite s m) :
    Good sqlite (s.step sqlite m) := by
  obtain ⟨conn, boots, stage⟩ := s
  obtain ⟨applied, upto, hstage⟩ := good
  cases m with
  | boot d =>
    cases stage with
    | off =>
      obtain ⟨done, applied⟩ := applied
      have closed : conn = .closed conn.committed := hstage
      have boot := post_runMigrations List.mem_cons_self (applied.more d) (ok rfl)
      rw [State.step]
      rw [closed]
      exact Good.settle rfl boot
    | booting p => exact ⟨applied, upto, hstage⟩
    | serving => exact ⟨applied, upto, hstage⟩
  | act o =>
    cases stage with
    | off => exact ⟨applied, upto, hstage⟩
    | serving => exact ⟨applied, upto, hstage⟩
    | booting p =>
      cases p with
      | ret a => exact ⟨applied, upto, hstage⟩
      | raise e => exact ⟨applied, upto, hstage⟩
      | call c k =>
        obtain ⟨d, head, h⟩ := hstage
        exact Good.settle head (h.2 o)
  | serve rows =>
    cases stage with
    | off => exact ⟨applied, upto, hstage⟩
    | booting p => exact ⟨applied, upto, hstage⟩
    | serving =>
      obtain ⟨closed, all⟩ := hstage
      obtain ⟨done, applied⟩ := applied
      have closed : conn = .closed conn.committed := closed
      have view : conn.view = conn.committed := by rw [closed]; rfl
      have journal : conn.view.journal = conn.committed.journal := by rw [view]
      have ledger : conn.view.tables.ledger = conn.committed.tables.ledger := by rw [view]
      refine ⟨⟨done, applied.congr journal ledger⟩, ?_, rfl, ?_⟩
      · intro d hd
        obtain ⟨front, rest, split, h⟩ := upto d hd
        exact ⟨front, rest, split, h.congr journal ledger⟩
      · intro d hd
        exact (all d hd).congr journal ledger
  | death => exact ⟨applied, upto, rfl⟩

theorem Run.good {s : State ρ} (run : Run sqlite (Orderly sqlite) s) : Good sqlite s := by
  induction run with
  | fresh rows => exact .fresh rows
  | step m run ok ih => exact ih.step m ok

theorem Good.inOrder {s : State ρ} (good : Good sqlite s) : InOrder sqlite s := by
  refine ⟨good.applied, ?_, ?_⟩
  · intro d hd
    obtain ⟨front, rest, split, h⟩ := good.upto d hd
    refine ⟨front.length, ?_⟩
    rw [split, List.take_left]
    exact h.versions
  · intro serving d hd m hm
    obtain ⟨conn, boots, stage⟩ := s
    cases stage with
    | off => exact Bool.noConfusion serving
    | booting p => exact Bool.noConfusion serving
    | serving => exact ((good.stage.2 d hd).versions _).mpr (List.mem_map_of_mem hm)

end Boot

/-- The statement of the first migration that creates `schema_migrations`. -/
def createLedger : String :=
  "CREATE TABLE schema_migrations (version INTEGER PRIMARY KEY, name, applied_at);"

/-- A database that knows of statements that create tables, and keeps their texts. -/
def creating : Sqlite (List String) Unit where
  complete := fun _ => true
  effect := fun sql => .change false fun _ t =>
    if sql = createLedger then
      match t.ledger with
      | none => .ok { t with ledger := some [] }
      | some _ => .error ⟨"table schema_migrations already exists", false⟩
    else .ok { t with rows := t.rows ++ [sql] }
  violations := fun _ => []

def first : File := ⟨"001_initial_schema.sql", some createLedger⟩

def second : File := ⟨"002_sync.sql", some "CREATE TABLE sync (id TEXT);"⟩

def third : File := ⟨"003_tags.sql", some "CREATE TABLE tags (id TEXT);"⟩

/-- The process boots with these files, and nothing fails. -/
def bootWith (s : State (List String)) (files : List File) : State (List String) :=
  (List.replicate 20 (Move.act ⟨none, (), 0⟩)).foldl (State.step creating)
    (s.step creating (.boot ⟨"migrations", some files⟩))

theorem run_boot {ok : State (List String) → Move (List String) Unit → Prop}
    {s : State (List String)} {files : List File} (run : Run creating ok s)
    (boot : ok s (.boot ⟨"migrations", some files⟩)) (acts : ∀ s o, ok s (.act o)) :
    Run creating ok (bootWith s files) := by
  have all : ∀ n s, Run creating ok s → Run creating ok
      ((List.replicate n (Move.act ⟨none, (), 0⟩)).foldl (State.step creating) s) := by
    intro n
    induction n with
    | zero => exact fun _ run => run
    | succ n ih => exact fun s run => ih _ (.step _ run (acts s _))
  exact all 20 _ (.step _ run boot)

theorem creating_contained (sql : String) : Contained (creating.effect sql) := by
  intro world t t' h
  by_cases ledger : sql = createLedger
  · cases old : t.ledger with
    | none =>
      simp only [if_pos ledger, old] at h
      rw [← Except.ok.inj h]
      simp [Tables.versions, old]
    | some entries =>
      simp only [if_pos ledger, old] at h
      exact nomatch h
  · simp only [if_neg ledger] at h
    rw [← Except.ok.inj h]
    rfl

end McManager.Migrations
