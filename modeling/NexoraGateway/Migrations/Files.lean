import Mathlib.Data.List.Lex
import NexoraGateway.Compliance.Types
import NexoraGateway.Store.Stable
import NexoraGateway.Text.Numerals
import NexoraGateway.Text.Pieces

/-!
# The files of the migrations (`loadMigrations`, db/src/migrate.ts:19-35)

`readdir` lists the files of a directory in any order; `sort` compares names by their UTF-16 code units.

* `loadMigrations_perm` — the order of the directory does not matter.
* `loadMigrations_added` — a release whose new files come after all the old ones only adds migrations.
* `names_nodup` — files end in `.sql` and have it nowhere else: then no two have one name.
-/
namespace NexoraGateway.Migrations

open Store Text.Pieces
open Compliance (charCodes)
open Text.Numerals (trim)

structure Migration where
  name : String
  up : String
  down : String
  deriving DecidableEq

structure File where
  name : String
  content : String
  deriving DecidableEq

/-- One file: what follows a second `-- DOWN` is dropped. -/
def migration (file : File) : Migration :=
  let (up, rest?) := breakOn "-- DOWN".toList file.content.toList
  { name := String.ofList (removeFirst ".sql".toList file.name.toList)
    up := String.ofList (trim (removeFirst "-- UP".toList up))
    down := String.ofList (rest?.elim [] fun rest => trim (breakOn "-- DOWN".toList rest).1) }

def File.isSql (file : File) : Bool := ".sql".toList.isSuffixOf file.name.toList

def File.key (file : File) : List Nat := charCodes file.name

def loadMigrations (dir : List File) : List Migration := (sortBy File.key (dir.filter File.isSql)).map migration

variable {dir dir' : List File}

theorem loadMigrations_perm (hperm : dir.Perm dir') (hkeys : (dir.map File.key).Nodup) :
    loadMigrations dir = loadMigrations dir' := by
  have hsub : ((dir.filter File.isSql).map File.key).Nodup := hkeys.sublist (List.filter_sublist.map _)
  rw [loadMigrations, sortBy_eq_of_perm (hperm.filter _) hsub, loadMigrations]

/-- The migrations of a release stay in front when files are added whose names come after theirs. -/
theorem loadMigrations_added {new : List File}
    (hlater : ∀ f ∈ dir, f.isSql → ∀ g ∈ new, g.isSql → f.key ≤ g.key) :
    loadMigrations dir <+: loadMigrations (dir ++ new) := by
  refine ⟨loadMigrations new, ?_⟩
  simp only [loadMigrations]
  rw [List.filter_append, sortBy_append fun f hf g hg => ?_, List.map_append]
  obtain ⟨hf, hsql⟩ := List.mem_filter.1 hf
  obtain ⟨hg, hsql'⟩ := List.mem_filter.1 hg
  exact hlater f hf hsql g hg hsql'

/-- The name without its ending, for a file whose name has `.sql` at its end only. -/
theorem migration_name {file : File} {base : List Char} (hname : file.name.toList = base ++ ".sql".toList)
    (hfree : Free ".sql".toList base) : (migration file).name = String.ofList base := by
  have hremove := removeFirst_append hfree []
  rw [List.append_nil, List.append_nil, ← hname] at hremove
  simp only [migration, hremove]

theorem names_nodup (hnames : (dir.map File.name).Nodup)
    (hbases : ∀ f ∈ dir, f.isSql → ∃ base, f.name.toList = base ++ ".sql".toList ∧ Free ".sql".toList base) :
    ((loadMigrations dir).map Migration.name).Nodup := by
  have hsorted : (sortBy File.key (dir.filter File.isSql)).Nodup :=
    sortBy_perm.nodup_iff.2 ((List.Nodup.of_map _ hnames).filter _)
  rw [loadMigrations, List.map_map]
  refine hsorted.map_on fun f hf g hg heq => ?_
  obtain ⟨hf, hsql⟩ := List.mem_filter.1 (mem_sortBy.1 hf)
  obtain ⟨hg, hsql'⟩ := List.mem_filter.1 (mem_sortBy.1 hg)
  obtain ⟨base, hbase, hfree⟩ := hbases f hf hsql
  obtain ⟨base', hbase', hfree'⟩ := hbases g hg hsql'
  simp only [Function.comp_apply, migration_name hbase hfree, migration_name hbase' hfree'] at heq
  have hsame : f.name = g.name := String.toList_injective (by rw [hbase, hbase', String.ofList_injective heq])
  exact List.inj_on_of_nodup_map hnames hf hg hsame

end NexoraGateway.Migrations
