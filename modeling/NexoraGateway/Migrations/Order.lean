import NexoraGateway.Migrations.Migrate

/-!
# In which order migrations are applied

Any number of runs of `migrate`, of one release or of several, at once or one after the other, each of which may lose
its connection or die at any point. A run knows which names are recorded: those that it has read, and those that it
has recorded itself (`progress`).

* `migrations_ordered` — every migration that is recorded has been applied once, in the order of the records, and after
  those that stand before it in its release; a run that resolves leaves all of its release recorded.
* `migrations_of_newest` — where releases only add migrations at the end, those applied are the first of the newest.
* `migrate_resumes` — another run that nothing disturbs applies the rest.
-/
namespace NexoraGateway.Migrations

open Async

variable {S : Type} {executes : String → S → Option S}

/-- The scripts one after another. -/
def upgrade (executes : String → S → Option S) (ms : List Migration) (s : S) : Option S :=
  ms.foldlM (fun s m => executes m.up s) s

/-- `m` stands in a release, and what stands before it there is recorded. -/
def Due (releases : List Migration → Prop) (names : List String) (m : Migration) : Prop :=
  ∃ done rest, releases (done ++ m :: rest) ∧ ∀ x ∈ done, x.name ∈ names

/-- The migrations, applied to `start` in this order, each when it was due and for the first time, give the schema. -/
inductive Applied (executes : String → S → Option S) (releases : List Migration → Prop) (start : S) :
    List Migration → S → Prop
  | nil : Applied executes releases start [] start
  | snoc {ms : List Migration} {m : Migration} {s t : S} (h : Applied executes releases start ms s)
      (hdue : Due releases (ms.map Migration.name) m) (hnew : m.name ∉ ms.map Migration.name)
      (hup : executes m.up s = some t) : Applied executes releases start (ms ++ [m]) t

variable {releases : List Migration → Prop} {start s : S} {ms : List Migration}

theorem Applied.upgrade (h : Applied executes releases start ms s) : upgrade executes ms start = some s := by
  induction h with
  | nil => rfl
  | snoc h hdue hnew hup ih =>
    rw [Migrations.upgrade, List.foldlM_append]
    rw [Migrations.upgrade] at ih
    rw [ih]
    simpa using hup

theorem Applied.nodup (h : Applied executes releases start ms s) : (ms.map Migration.name).Nodup := by
  induction h with
  | nil => exact List.nodup_nil
  | snoc h hdue hnew hup ih =>
    rw [List.map_append, List.map_singleton]
    exact List.Nodup.append ih (List.nodup_singleton _) (by simpa using hnew)

/-- Each was due when it was applied. -/
theorem Applied.due (h : Applied executes releases start ms s) {before after : List Migration} {m : Migration}
    (hsplit : ms = before ++ m :: after) : Due releases (before.map Migration.name) m := by
  induction h generalizing after with
  | nil => cases before <;> cases hsplit
  | @snoc ms m' s t h hdue hnew hup ih =>
    rcases List.eq_nil_or_concat after with rfl | ⟨after', x, rfl⟩
    · obtain ⟨rfl, heq⟩ := List.append_inj' hsplit rfl
      cases heq
      exact hdue
    · have hsplit' : ms ++ [m'] = before ++ m :: after' ++ [x] := by simpa using hsplit
      exact ih (List.append_inj' hsplit' rfl).1

/-- The schema is what the recorded migrations make of `start`. -/
def Upgraded (executes : String → S → Option S) (releases : List Migration → Prop) (start : S) (db : Db S) : Prop :=
  ∃ ms, Applied executes releases start ms db.schema ∧ db.names = ms.map Migration.name

/-! ## What a run knows -/

/-- A run learns which names are recorded, and runs a migration of its release when those before it are. -/
def progress (S : Type) (releases : List Migration → Prop) : Knowledge Call Answer (Db S) String where
  Holds db name := name ∈ db.names
  ok names
    | .apply m => Due releases names m
    | _ => True
  rely _ _ := True
  learns
    | .getAppliedMigrations, .ok names => names
    | .apply m, .ok () => [m.name]
    | _, _ => []

/-- Names stay recorded. -/
theorem names_kept {db db' : Db S} {a : Call} {r : Answer a} (h : Effect executes db a r db') :
    ∀ name ∈ db.names, name ∈ db'.names := by
  cases h with
  | applied hup hnew r => exact fun name hname => List.mem_append_left _ hname
  | _ => exact fun name hname => hname

theorem names_learned {db db' : Db S} {a : Call} {r : Answer a} (h : Effect executes db a r db') :
    ∀ name ∈ (progress S releases).learns a r, name ∈ db'.names := by
  cases h with
  | read r hread =>
    cases r with
    | error e => exact fun _ hname => absurd hname List.not_mem_nil
    | ok names =>
      intro name hname
      rw [Db.names, hread names rfl]
      exact hname
  | applied hup hnew r =>
    cases r with
    | error e => exact fun _ hname => absurd hname List.not_mem_nil
    | ok _ => exact fun name hname => List.mem_append_right _ hname
  | failed a e => cases a <;> exact fun _ hname => absurd hname List.not_mem_nil
  | connected r => exact fun _ hname => absurd hname List.not_mem_nil
  | ensured r => exact fun _ hname => absurd hname List.not_mem_nil

theorem upgraded_kept {db db' : Db S} {a : Call} {r : Answer a} (hdb : Upgraded executes releases start db)
    {names : List String} (hnames : ∀ name ∈ names, name ∈ db.names) (hok : (progress S releases).ok names a)
    (h : Effect executes db a r db') : Upgraded executes releases start db' := by
  obtain ⟨ms, happlied, hms⟩ := hdb
  cases h with
  | applied hup hnew r =>
    obtain ⟨done, rest, hrelease, hdone⟩ := hok
    refine ⟨_, happlied.snoc ⟨done, rest, hrelease, fun x hx => ?_⟩ ?_ hup, ?_⟩
    · rw [← hms]
      exact hnames _ (hdone x hx)
    · rwa [← hms]
    · rw [List.map_append, ← hms]
      rfl
  | _ => exact ⟨ms, happlied, hms⟩

/-- A run of `migrate`, answered by the migrations of its release. -/
def deploy (dir : List File) : Task (List Migration) := do
  migrate dir
  return loadMigrations dir

/-- A run that resolves is of a release, all of which is recorded. -/
def Recorded (releases : List Migration → Prop) (names : List String) (out : Except MigrationError (List Migration)) :
    Prop :=
  ∀ l, out = .ok l → releases l ∧ ∀ m ∈ l, m.name ∈ names

/-- The loop, when it has got past `done`: induction on what is left of the release. -/
theorem progress_pending {names applied : List String} (done ms : List Migration) (hrelease : releases (done ++ ms))
    (hdone : ∀ x ∈ done, x.name ∈ names) (happlied : ∀ name ∈ applied, name ∈ names) :
    ((applyPending applied ms).bind fun _ => .ret (done ++ ms)).Obeys (progress S releases).protocol
      (Recorded releases) names := by
  induction ms generalizing done names with
  | nil =>
    rw [List.append_nil] at hrelease ⊢
    intro l hl
    obtain rfl := Except.ok.inj hl
    exact ⟨hrelease, hdone⟩
  | cons m ms ih =>
    have hrelease' : releases (done ++ [m] ++ ms) := by rwa [List.append_assoc]
    have hrest {names' : List String} (hsub : names ⊆ names') (hm : m.name ∈ names') :
        ((applyPending applied ms).bind fun _ => .ret (done ++ m :: ms)).Obeys (progress S releases).protocol
          (Recorded releases) names' := by
      have hpast : ∀ x ∈ done ++ [m], x.name ∈ names' := by
        intro x hx
        rcases List.mem_append.1 hx with hx | hx
        · exact hsub (hdone x hx)
        · rwa [List.mem_singleton.1 hx]
      have h := ih (done ++ [m]) hrelease' hpast fun name hname => hsub (happlied name hname)
      rwa [List.append_assoc] at h
    change (Prog.bind (Prog.bind (if applied.contains m.name then pure () else Task.apply m) _) _).Obeys _ _ _
    rw [Prog.bind_assoc]
    by_cases hcontains : applied.contains m.name = true
    · rw [if_pos hcontains]
      exact hrest (List.Subset.refl _) (happlied _ (List.contains_iff_mem.1 hcontains))
    · rw [if_neg hcontains]
      refine ⟨⟨done, ms, hrelease, hdone⟩, fun r _ => ?_⟩
      cases r with
      | error e => exact nofun
      | ok u => exact hrest (List.subset_append_left _ _) (List.mem_append_right _ (List.mem_singleton_self _))

theorem progress_deploy {dir : List File} (hrelease : releases (loadMigrations dir)) :
    (deploy dir).Obeys (progress S releases).protocol (Recorded releases) [] := by
  have hfail {names : List String} (e : MigrationError) : Recorded releases names (.error e) := nofun
  refine ⟨trivial, fun r _ => ?_⟩
  cases r with
  | error e => exact hfail e
  | ok _ =>
    refine ⟨trivial, fun r _ => ?_⟩
    cases r with
    | error e => exact hfail e
    | ok _ =>
      refine ⟨trivial, fun r _ => ?_⟩
      cases r with
      | error e => exact hfail e
      | ok applied =>
        exact progress_pending [] _ hrelease (fun _ hx => absurd hx List.not_mem_nil) fun name hname => hname

/-! ## Whole runs -/

/-- What the releases load. -/
def loaded (release : List File → Prop) : List Migration → Prop := fun l => ∃ dir, release dir ∧ l = loadMigrations dir

/-- A database without migrations, in which runs for releases are started. -/
def fresh (start : S) : Pool Call Answer MigrationError (List Migration) (Db S) := ⟨⟨start, none⟩, []⟩

section
variable {release : List File → Prop} {cs : List (Choice Call Answer MigrationError (List Migration) Oracle)}
  (start : S) (hstart : ∀ p, .spawn p ∈ cs → ∃ dir, release dir ∧ p = deploy dir)
include hstart

theorem migrations_applied :
    ∃ ms, Applied executes (loaded release) start ms ((fresh start).exec (handle executes) cs).store.schema ∧
      ((fresh start).exec (handle executes) cs).store.names = ms.map Migration.name ∧
      ∀ i l, ((fresh start).exec (handle executes) cs).Ended i (.ok l) →
        loaded release l ∧ ∀ m ∈ l, m.name ∈ ms.map Migration.name := by
  obtain ⟨⟨ms, happlied, hnames⟩, hended⟩ := Knowledge.exec_ends (K := progress S (loaded release))
    (I := Upgraded executes (loaded release) start) (Q := Recorded (loaded release)) (h := handle executes)
    (fun p hp => by
      obtain ⟨dir, hdir, rfl⟩ := hp
      exact progress_deploy ⟨dir, hdir, rfl⟩)
    (fun db names a o hdb hnames hok => ⟨trivial, upgraded_kept hdb hnames hok (handle_effect a o db),
      names_kept (handle_effect a o db), names_learned (handle_effect a o db)⟩)
    (s := ⟨start, none⟩) ⟨[], .nil, rfl⟩ hstart
  refine ⟨ms, happlied, hnames, fun i l hl => ?_⟩
  obtain ⟨names, hrecorded, hholds⟩ := hended i _ hl
  obtain ⟨hloaded, hall⟩ := hrecorded l rfl
  refine ⟨hloaded, fun m hm => ?_⟩
  rw [← hnames]
  exact hholds _ (hall m hm)

/-- **Migrations are applied once, and in order.** -/
theorem migrations_ordered :
    ∃ ms : List Migration, ((fresh start).exec (handle executes) cs).store.names = ms.map Migration.name ∧
      (ms.map Migration.name).Nodup ∧
      upgrade executes ms start = some ((fresh start).exec (handle executes) cs).store.schema ∧
      (∀ before m after, ms = before ++ m :: after → Due (loaded release) (before.map Migration.name) m) ∧
      ∀ i l, ((fresh start).exec (handle executes) cs).Ended i (.ok l) →
        loaded release l ∧ ∀ m ∈ l, m.name ∈ ms.map Migration.name := by
  obtain ⟨ms, happlied, hnames, hended⟩ := @migrations_applied _ executes _ _ start hstart
  exact ⟨ms, hnames, happlied.nodup, happlied.upgrade, fun _ _ _ => happlied.due, hended⟩

end

/-- Scripts that create a table each. -/
def createTable (up : String) (tables : List String) : Option (List String) :=
  if up ∈ tables then none else some (tables ++ [up])

def firstRelease : List File :=
  [⟨"002_b.sql", "-- UP\nb\n\n-- DOWN\n"⟩, ⟨"README.md", ""⟩, ⟨"001_a.sql", "-- UP\na\n\n-- DOWN\n"⟩]

def secondRelease : List File := firstRelease ++ [⟨"003_c.sql", "-- UP\nc"⟩]

/-- A run of the second release has read the names before one of the first has applied `002_b`, and fails there. Another
loses the answer to its last `COMMIT`. -/
def twoReleases : List (Choice Call Answer MigrationError (List Migration) Oracle) :=
  [.spawn (deploy firstRelease), .spawn (deploy secondRelease), .spawn (deploy secondRelease)] ++
    List.replicate 4 (.step 0 {}) ++ List.replicate 3 (.step 1 {}) ++ [.step 0 {}, .step 1 {}] ++
    List.replicate 3 (.step 2 {}) ++ [.step 2 { fault := some .commit, lost := true }]

theorem twoReleases_deploys : ∀ p, .spawn p ∈ twoReleases →
    ∃ dir, (dir = firstRelease ∨ dir = secondRelease) ∧ p = deploy dir := by
  intro p hp
  simp only [twoReleases, List.mem_append, List.mem_cons, List.mem_replicate, List.not_mem_nil, reduceCtorEq, and_false,
    or_false, Choice.spawn.injEq] at hp
  rcases hp with rfl | rfl | rfl
  · exact ⟨_, .inl rfl, rfl⟩
  · exact ⟨_, .inr rfl, rfl⟩
  · exact ⟨_, .inr rfl, rfl⟩

theorem migrations_ordered_releases :
    (((fresh []).exec (handle createTable) twoReleases).store.names = ["001_a", "002_b", "003_c"] ∧
      ((fresh []).exec (handle createTable) twoReleases).returned 0 = true ∧
      ((fresh []).exec (handle createTable) twoReleases).threw 1 = true) ∧
    ∃ ms : List Migration, ((fresh []).exec (handle createTable) twoReleases).store.names = ms.map Migration.name ∧
      (ms.map Migration.name).Nodup ∧
      upgrade createTable ms [] = some ((fresh []).exec (handle createTable) twoReleases).store.schema ∧
      (∀ before m after, ms = before ++ m :: after →
        Due (loaded fun dir => dir = firstRelease ∨ dir = secondRelease) (before.map Migration.name) m) ∧
      ∀ i l, ((fresh []).exec (handle createTable) twoReleases).Ended i (.ok l) →
        loaded (fun dir => dir = firstRelease ∨ dir = secondRelease) l ∧ ∀ m ∈ l, m.name ∈ ms.map Migration.name :=
  ⟨by decide +kernel, migrations_ordered [] twoReleases_deploys⟩

/-! ## Releases that only add migrations -/

/-- One beginning of a list with distinct names is a beginning of another when its names are there. -/
theorem prefix_of_names {all l l' : List Migration} (hall : (all.map Migration.name).Nodup) (hl : l <+: all)
    (hl' : l' <+: all) (hnames : ∀ x ∈ l, x.name ∈ l'.map Migration.name) : l <+: l' := by
  rcases List.prefix_or_prefix_of_prefix hl hl' with h | ⟨_ | ⟨x, later⟩, rfl⟩
  · exact h
  · simp
  · -- the first of `l` that is not in `l'` would stand there under its name
    have hnodup : ((l' ++ x :: later).map Migration.name).Nodup := hall.sublist (hl.sublist.map _)
    rw [List.map_append, List.map_cons] at hnodup
    have hx := hnames x (List.mem_append_right _ List.mem_cons_self)
    exact absurd List.mem_cons_self (List.disjoint_of_nodup_append hnodup hx)

/-- What is due after `ms` in a list that begins with `ms` is what comes next. -/
theorem due_next {all done rest : List Migration} {m : Migration} (hall : (all.map Migration.name).Nodup)
    (hms : ms <+: all) (hrelease : done ++ m :: rest <+: all) (hdone : ∀ x ∈ done, x.name ∈ ms.map Migration.name)
    (hnew : m.name ∉ ms.map Migration.name) : ms = done := by
  have hnext : done ++ [m] <+: all := (List.prefix_append_right_inj _ |>.2 (by simp)).trans hrelease
  obtain ⟨_ | ⟨x, later⟩, rfl⟩ := prefix_of_names hall ((List.prefix_append _ _).trans hrelease) hms hdone
  · exact List.append_nil done
  · -- `m` comes right after `done`, so it would be in `ms`
    have hm : done ++ [m] <+: done ++ x :: later := List.prefix_of_prefix_length_le hnext hms (by simp)
    exact absurd (List.mem_map_of_mem (hm.subset (by simp))) hnew

theorem Applied.isPrefix {all : List Migration} (hall : (all.map Migration.name).Nodup)
    (hreleases : ∀ l, releases l → l <+: all) (h : Applied executes releases start ms s) : ms <+: all := by
  induction h with
  | nil => exact List.nil_prefix
  | snoc h hdue hnew hup ih =>
    obtain ⟨done, rest, hrelease, hdone⟩ := hdue
    obtain rfl := due_next hall ih (hreleases _ hrelease) hdone hnew
    refine List.IsPrefix.trans ?_ (hreleases _ hrelease)
    exact List.prefix_append_right_inj _ |>.2 (by simp)

section
variable {release : List File → Prop} {cs : List (Choice Call Answer MigrationError (List Migration) Oracle)}
  (start : S) (hstart : ∀ p, .spawn p ∈ cs → ∃ dir, release dir ∧ p = deploy dir) (newest : List File)
  (hnames : ((loadMigrations newest).map Migration.name).Nodup)
  (hadds : ∀ dir, release dir → loadMigrations dir <+: loadMigrations newest)
include hstart hnames hadds

/-- **What is applied is a beginning of the newest release**, and no run resolves before all of its own is. -/
theorem migrations_of_newest :
    ∃ ms, ms <+: loadMigrations newest ∧
      ((fresh start).exec (handle executes) cs).store.names = ms.map Migration.name ∧
      upgrade executes ms start = some ((fresh start).exec (handle executes) cs).store.schema ∧
      ∀ i l, ((fresh start).exec (handle executes) cs).Ended i (.ok l) → l <+: ms := by
  obtain ⟨ms, happlied, hms, hended⟩ := @migrations_applied _ executes _ _ start hstart
  have hreleases : ∀ l, loaded release l → l <+: loadMigrations newest := by
    rintro l ⟨dir, hdir, rfl⟩
    exact hadds dir hdir
  have hprefix := happlied.isPrefix hnames hreleases
  refine ⟨ms, hprefix, hms, happlied.upgrade, fun i l hl => ?_⟩
  obtain ⟨hloaded, hall⟩ := hended i l hl
  exact prefix_of_names hnames (hreleases l hloaded) hprefix hall

end

theorem secondRelease_names : ((loadMigrations secondRelease).map Migration.name).Nodup := by decide +kernel

theorem secondRelease_adds : ∀ dir, dir = firstRelease ∨ dir = secondRelease →
    loadMigrations dir <+: loadMigrations secondRelease := by
  rintro dir (rfl | rfl)
  · exact loadMigrations_added (by decide +kernel)
  · exact List.prefix_refl _

theorem migrations_of_newest_releases :
    ∃ ms, ms <+: loadMigrations secondRelease ∧
      ((fresh []).exec (handle createTable) twoReleases).store.names = ms.map Migration.name ∧
      upgrade createTable ms [] = some ((fresh []).exec (handle createTable) twoReleases).store.schema ∧
      ∀ i l, ((fresh []).exec (handle createTable) twoReleases).Ended i (.ok l) → l <+: ms :=
  migrations_of_newest [] twoReleases_deploys secondRelease secondRelease_names secondRelease_adds

/-! ## Going on after a failure -/

/-- What is recorded is passed over. -/
theorem applyPending_recorded {applied : List String} (hms : ∀ m ∈ ms, m.name ∈ applied) (rest : List Migration) :
    applyPending applied (ms ++ rest) = applyPending applied rest := by
  induction ms with
  | nil => rfl
  | cons m ms ih =>
    change Prog.bind (if applied.contains m.name then pure () else Task.apply m) _ = _
    rw [if_pos (List.contains_iff_mem.2 (hms m List.mem_cons_self))]
    exact ih fun m hm => hms m (List.mem_cons_of_mem _ hm)

theorem apply_calm {m : Migration} {names : List String} {s t : S} (hup : executes m.up s = some t)
    (hnew : m.name ∉ names) :
    handle executes (.apply m) {} ⟨s, some names⟩ = (.ok (), ⟨t, some (names ++ [m.name])⟩) := by
  have hbody : applyMigration executes {} m ⟨s, some names⟩ = .ok ((), ⟨t, some (names ++ [m.name])⟩) := by
    simp only [applyMigration, statement, Oracle.rejects, hup, if_neg hnew]
    rfl
  simp only [handle, executed, hbody]
  rfl

/-- What is not recorded is applied, one after another: induction on it. -/
theorem run_pending {applied names : List String} {s t : S} (hms : ∀ m ∈ ms, m.name ∉ applied)
    (hnodup : (names ++ ms.map Migration.name).Nodup) (hup : upgrade executes ms s = some t) (k : Nat) :
    (applyPending applied ms).run (handle executes) (fun _ => {}) k ⟨s, some names⟩ =
      (.ok (), k + ms.length, ⟨t, some (names ++ ms.map Migration.name)⟩) := by
  induction ms generalizing s names k with
  | nil =>
    obtain rfl := Option.some.inj hup
    simp [applyPending]
  | cons m ms ih =>
    obtain ⟨s', hup', hrest⟩ := Option.bind_eq_some_iff.1 hup
    have hnew : m.name ∉ names := by
      intro hmem
      exact List.disjoint_of_nodup_append hnodup hmem (by simp)
    have hstep : (Prog.bind (Task.apply m) fun _ => applyPending applied ms).run (handle executes) (fun _ => {}) k
        ⟨s, some names⟩ = (applyPending applied ms).run (handle executes) (fun _ => {}) (k + 1)
          ⟨s', some (names ++ [m.name])⟩ :=
      Prog.run_await_bind_of_ok _ (apply_calm hup' hnew) _
    have hnodup' : (names ++ [m.name] ++ ms.map Migration.name).Nodup := by simpa using hnodup
    have h := ih (fun m hm => hms m (List.mem_cons_of_mem _ hm)) hnodup' hrest (k + 1)
    change (Prog.bind (if applied.contains m.name then pure () else Task.apply m) _).run _ _ _ _ = _
    rw [if_neg fun h => hms m List.mem_cons_self (List.contains_iff_mem.1 h)]
    refine hstep.trans (h.trans ?_)
    simp only [List.map_cons, List.append_assoc, List.singleton_append, List.length_cons, Nat.add_assoc,
      Nat.add_comm 1]

/-- A run that nothing disturbs, when a beginning of its release has been applied. -/
theorem run_migrate {dir : List File} {rest : List Migration} {db : Db S} {t : S}
    (hsplit : loadMigrations dir = ms ++ rest) (hnodup : ((loadMigrations dir).map Migration.name).Nodup)
    (hnames : db.names = ms.map Migration.name) (hup : upgrade executes rest db.schema = some t) :
    (migrate dir).run (handle executes) (fun _ => {}) 0 db =
      (.ok (), 3 + rest.length, ⟨t, some ((loadMigrations dir).map Migration.name)⟩) := by
  rw [hsplit, List.map_append] at hnodup
  have hnew : ∀ m ∈ rest, m.name ∉ ms.map Migration.name :=
    fun m hm hmem => List.disjoint_of_nodup_append hnodup hmem (List.mem_map_of_mem hm)
  change (applyPending db.names (loadMigrations dir)).run (handle executes) (fun _ => {}) 3
    ⟨db.schema, some db.names⟩ = _
  rw [hnames, hsplit, List.map_append, applyPending_recorded fun m hm => List.mem_map_of_mem hm]
  exact run_pending hnew hnodup hup 3

section
variable {release : List File → Prop} {cs : List (Choice Call Answer MigrationError (List Migration) Oracle)}
  (start : S) (hstart : ∀ p, .spawn p ∈ cs → ∃ dir, release dir ∧ p = deploy dir) (newest : List File)
  (hnames : ((loadMigrations newest).map Migration.name).Nodup)
  (hadds : ∀ dir, release dir → loadMigrations dir <+: loadMigrations newest)
include hstart hnames hadds

/-- **A run that nothing disturbs applies the rest**, whatever has failed or died before it. -/
theorem migrate_resumes {final : S} (hup : upgrade executes (loadMigrations newest) start = some final) :
    ∃ k, (migrate newest).run (handle executes) (fun _ => {}) 0 ((fresh start).exec (handle executes) cs).store =
      (.ok (), k, ⟨final, some ((loadMigrations newest).map Migration.name)⟩) := by
  obtain ⟨ms, happlied, hms, -⟩ := @migrations_applied _ executes _ _ start hstart
  obtain ⟨rest, hsplit⟩ := happlied.isPrefix hnames fun l ⟨dir, hdir, hl⟩ => hl ▸ hadds dir hdir
  rw [← hsplit, upgrade, List.foldlM_append] at hup
  obtain ⟨s, hs, hrest⟩ := Option.bind_eq_some_iff.1 hup
  obtain rfl := Option.some.inj (hs.symm.trans happlied.upgrade)
  exact ⟨_, run_migrate hsplit.symm hnames hms hrest⟩

end

/-- After six calls of the run for the first release it has applied `001_a`, and dies. -/
theorem migrate_resumes_releases :
    ((fresh []).exec (handle createTable) (twoReleases.take 7)).store.names = ["001_a"] ∧
      ∃ k, (migrate secondRelease).run (handle createTable) (fun _ => {}) 0
          ((fresh []).exec (handle createTable) (twoReleases.take 7)).store =
        (.ok (), k, ⟨["a", "b", "c"], some ((loadMigrations secondRelease).map Migration.name)⟩) :=
  ⟨by decide +kernel, migrate_resumes [] (fun p hp => twoReleases_deploys p (List.mem_of_mem_take hp)) secondRelease
    secondRelease_names secondRelease_adds (by decide +kernel)⟩

end NexoraGateway.Migrations
