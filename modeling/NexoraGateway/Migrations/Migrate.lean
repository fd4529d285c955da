import NexoraGateway.Async.Knowledge
import NexoraGateway.Migrations.Files
import NexoraGateway.Store.Atomic

/-!
# Running the migrations (`migrate`, db/src/migrate.ts:60-89)

`executes up` is what PostgreSQL makes of the schema when it runs a script; it refuses some. The transaction of a
migration is one step, of which any statement may be rejected; a `COMMIT` may be carried out and its answer be lost.
The rows of `schema_migrations` stand in the order of their ids.
-/
namespace NexoraGateway.Migrations

open Async Store

inductive Statement where
  | connect | createTable | select | begin | up | insert | commit
  deriving DecidableEq

inductive MigrationError where
  | database (s : Statement)

structure Oracle where
  fault : Option Statement := none
  lost : Bool := false

/-- `applied` is `none` as long as there is no table `schema_migrations`. -/
structure Db (S : Type) where
  schema : S
  applied : Option (List String)

variable {S : Type} (executes : String → S → Option S)

def Db.names (db : Db S) : List String := db.applied.getD []

def Oracle.rejects (o : Oracle) (s : Statement) : Option MigrationError :=
  if o.fault = some s then some (.database s) else none

def statement (o : Oracle) (s : Statement) : Except MigrationError Unit := (o.rejects s).elim (.ok ()) .error

/-- A body whose last statement is `last`. -/
def executed {α : Type} (o : Oracle) (last : Statement) (body : Db S → Except MigrationError (α × Db S)) (db : Db S) :
    Except MigrationError α × Db S :=
  match body db with
  | .ok result => request (o.rejects last) o.lost result db
  | .error e => (.error e, db)

inductive Call where
  | getClient
  | ensureMigrationsTable
  | getAppliedMigrations
  | apply (m : Migration)

def Call.Ans : Call → Type
  | .getAppliedMigrations => List String
  | _ => Unit

abbrev Answer (a : Call) : Type := Except MigrationError a.Ans

/-- What the transaction of a migration does before its `COMMIT` (migrate.ts:71-74). A name that is there violates
`UNIQUE`. -/
def applyMigration (o : Oracle) (m : Migration) (db : Db S) : Except MigrationError (Unit × Db S) := do
  statement o .begin
  statement o .up
  let some schema := executes m.up db.schema | throw (.database .up)
  statement o .insert
  let some names := db.applied | throw (.database .insert)
  if m.name ∈ names then throw (.database .insert)
  return ((), { schema, applied := some (names ++ [m.name]) })

def handle : Handler Call Answer Oracle (Db S)
  | .getClient, o => executed o .connect fun db => .ok ((), db)
  | .ensureMigrationsTable, o => executed o .createTable fun db => .ok ((), { db with applied := some db.names })
  | .getAppliedMigrations, o => executed o .select fun db =>
    match db.applied with
    | some names => .ok (names, db)
    | none => .error (.database .select)
  | .apply m, o => executed o .commit (applyMigration executes o m)

abbrev Task (α : Type) : Type := Prog Call Answer MigrationError α

namespace Task
def getClient : Task Unit := Prog.await Call.getClient
def ensureMigrationsTable : Task Unit := Prog.await Call.ensureMigrationsTable
def getAppliedMigrations : Task (List String) := Prog.await Call.getAppliedMigrations
def apply (m : Migration) : Task Unit := Prog.await (Call.apply m)
end Task

/-- The loop (migrate.ts:68-82): `applied` are the names that were read before it. -/
def applyPending (applied : List String) (migrations : List Migration) : Task Unit :=
  migrations.forM fun m => if applied.contains m.name then pure () else Task.apply m

def migrate (dir : List File) : Task Unit := do
  Task.getClient
  Task.ensureMigrationsTable
  let applied ← Task.getAppliedMigrations
  applyPending applied (loadMigrations dir)

/-! ## What a call does -/

variable {executes} {db : Db S}

/-- A call fails without effect, or it is carried out; its answer may be lost then. -/
inductive Effect (executes : String → S → Option S) (db : Db S) : (a : Call) → Answer a → Db S → Prop
  | failed (a : Call) (e : MigrationError) : Effect executes db a (.error e) db
  | connected (r : Answer .getClient) : Effect executes db .getClient r db
  | ensured (r : Answer .ensureMigrationsTable) :
    Effect executes db .ensureMigrationsTable r { db with applied := some db.names }
  | read (r : Answer .getAppliedMigrations) (hread : ∀ names, r = .ok names → db.applied = some names) :
    Effect executes db .getAppliedMigrations r db
  | applied {m : Migration} {schema : S} (hup : executes m.up db.schema = some schema) (hnew : m.name ∉ db.names)
      (r : Answer (.apply m)) : Effect executes db (.apply m) r ⟨schema, some (db.names ++ [m.name])⟩

theorem executed_effect {a : Call} {o : Oracle} {last : Statement}
    {body : Db S → Except MigrationError (a.Ans × Db S)}
    (h : ∀ x t, body db = .ok (x, t) → ∀ r : Answer a, (∀ y, r = .ok y → y = x) → Effect executes db a r t) :
    Effect executes db a (executed o last body db).1 (executed o last body db).2 := by
  unfold executed
  cases hbody : body db with
  | error e => exact .failed a e
  | ok result =>
    obtain ⟨x, t⟩ := result
    dsimp only
    unfold request
    cases o.rejects last with
    | none => exact h x t hbody _ fun y hy => (Except.ok.inj hy).symm
    | some e =>
      dsimp only
      split
      · exact h x t hbody _ nofun
      · exact .failed a e

theorem applyMigration_ok {o : Oracle} {m : Migration} {t : Db S} (h : applyMigration executes o m db = .ok ((), t)) :
    ∃ schema, executes m.up db.schema = some schema ∧ m.name ∉ db.names ∧
      t = ⟨schema, some (db.names ++ [m.name])⟩ := by
  unfold applyMigration at h
  obtain ⟨-, -, h⟩ := bind_eq_ok.1 h
  obtain ⟨-, -, h⟩ := bind_eq_ok.1 h
  cases hup : executes m.up db.schema with
  | none =>
    rw [hup] at h
    cases h
  | some schema =>
    rw [hup] at h
    obtain ⟨-, -, h⟩ := bind_eq_ok.1 h
    cases hnames : db.applied with
    | none =>
      rw [hnames] at h
      cases h
    | some names =>
      rw [hnames] at h
      by_cases hmem : m.name ∈ names
      · simp only [if_pos hmem] at h
        cases h
      · simp only [if_neg hmem] at h
        cases h
        refine ⟨schema, rfl, ?_, ?_⟩ <;> simp [Db.names, hnames, hmem]

theorem handle_effect (a : Call) (o : Oracle) (db : Db S) :
    Effect executes db a (handle executes a o db).1 (handle executes a o db).2 := by
  cases a with
  | getClient =>
    refine executed_effect fun x t hbody r _ => ?_
    cases hbody
    exact .connected r
  | ensureMigrationsTable =>
    refine executed_effect fun x t hbody r _ => ?_
    cases hbody
    exact .ensured r
  | getAppliedMigrations =>
    refine executed_effect fun x t hbody r hr => ?_
    split at hbody
    · rename_i names hnames
      cases hbody
      exact .read r fun names' h => hnames.trans (congrArg some (hr names' h).symm)
    · cases hbody
  | apply m =>
    refine executed_effect fun x t hbody r _ => ?_
    obtain ⟨schema, hup, hnew, rfl⟩ := applyMigration_ok hbody
    exact .applied hup hnew r

end NexoraGateway.Migrations
