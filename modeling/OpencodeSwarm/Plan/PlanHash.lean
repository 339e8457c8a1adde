/-
  OpencodeSwarm.Plan.PlanHash

  The two plan digests of `src/plan/ledger.ts`: `computePlanLedgerHash`, which
  pins the persisted state for the hash chain, and `computePlanStructureHash`,
  the approval baseline.  Both hash the JSON text of an explicit field list;
  they differ only in the two status fields.

  SHA-256 is a parameter `sha256 : JsString → JsString`.  Over an injective
  `sha256` a digest is exactly the tuple of hashed fields, with the sorted
  lists read as multisets (`sha256_normalized_eq_iff`).
-/
import OpencodeSwarm.Lib.Json
import OpencodeSwarm.Config.PlanSchema
import Mathlib.Data.Multiset.Defs

namespace OpencodeSwarm

open Js

/-! ## JSON text of the enumerations -/

def TaskStatus.text : TaskStatus → JsString
  | .pending => js "pending"
  | .inProgress => js "in_progress"
  | .completed => js "completed"
  | .blocked => js "blocked"
  | .closed => js "closed"

def TaskSize.text : TaskSize → JsString
  | .small => js "small"
  | .medium => js "medium"
  | .large => js "large"

def PhaseStatus.text : PhaseStatus → JsString
  | .pending => js "pending"
  | .inProgress => js "in_progress"
  | .complete => js "complete"
  | .completed => js "completed"
  | .blocked => js "blocked"
  | .closed => js "closed"

def MigrationStatus.text : MigrationStatus → JsString
  | .native => js "native"
  | .migrated => js "migrated"
  | .migrationFailed => js "migration_failed"

def EvidenceClass.text : EvidenceClass → JsString
  | .coderMutation => js "coder_mutation"
  | .externalGit => js "external_git"

def PlanningProfile.text : PlanningProfile → JsString
  | .balanced => js "balanced"
  | .strict => js "strict"

theorem TaskStatus.text_injective : Function.Injective TaskStatus.text := by
  intro a b h
  cases a <;> cases b <;> first | rfl | exact absurd h (by decide)

theorem TaskSize.text_injective : Function.Injective TaskSize.text := by
  intro a b h
  cases a <;> cases b <;> first | rfl | exact absurd h (by decide)

theorem PhaseStatus.text_injective : Function.Injective PhaseStatus.text := by
  intro a b h
  cases a <;> cases b <;> first | rfl | exact absurd h (by decide)

theorem MigrationStatus.text_injective : Function.Injective MigrationStatus.text := by
  intro a b h
  cases a <;> cases b <;> first | rfl | exact absurd h (by decide)

theorem EvidenceClass.text_injective : Function.Injective EvidenceClass.text := by
  intro a b h
  cases a <;> cases b <;> first | rfl | exact absurd h (by decide)

theorem PlanningProfile.text_injective : Function.Injective PlanningProfile.text := by
  intro a b h
  cases a <;> cases b <;> first | rfl | exact absurd h (by decide)

/-! ## The normalized object -/

def natJson (n : Nat) : Json := .num n

def stringsJson (xs : List JsString) : Json := .arr (xs.map .str)

def ExternalEvidenceAnchor.json (anchor : ExternalEvidenceAnchor) : Json :=
  .ofFields [
    (js "command", some (.str anchor.command)),
    (js "expect", anchor.expect.map .str),
    (js "expect_prefix", anchor.expectPrefix.map .str)]

/-- `normalizeExecutionProfileForHash`: `commit_after_each_completed_task` is
    only present when it is `true`. -/
def ExecutionProfile.normalizedForHash (profile : ExecutionProfile) : Json :=
  .ofFields [
    (js "parallelization_enabled", some (.bool profile.parallelizationEnabled)),
    (js "max_concurrent_tasks", some (natJson profile.maxConcurrentTasks)),
    (js "council_parallel", some (.bool profile.councilParallel)),
    (js "locked", some (.bool profile.locked)),
    (js "auto_proceed", some (.bool profile.autoProceed)),
    (js "commit_after_each_completed_task",
      if profile.commitAfterEachCompletedTask then some (.bool true) else none),
    (js "planning_profile", profile.planningProfile.map fun p => .str p.text)]

/-- A task of the normalized plan; `keepStatus` is what the two digests differ
    in.  `fr_refs` is in neither. -/
def Task.normalized (keepStatus : Bool) (task : Task) : Json :=
  .ofFields [
    (js "id", some (.str task.id)),
    (js "phase", some (natJson task.phase)),
    (js "status", if keepStatus then some (.str task.status.text) else none),
    (js "size", some (.str task.size.text)),
    (js "description", some (.str task.description)),
    (js "depends", some (stringsJson (sortStrings task.depends))),
    (js "acceptance", task.acceptance.map .str),
    (js "files_touched", some (stringsJson (sortStrings task.filesTouched))),
    (js "evidence_path", task.evidencePath.map .str),
    (js "blocked_reason", task.blockedReason.map .str),
    (js "evidence_class", task.evidenceClass.map fun c => .str c.text),
    (js "evidence_anchors",
      task.evidenceAnchors.map fun as => .arr (as.map ExternalEvidenceAnchor.json))]

/-- A phase of the normalized plan.  The field list has no `type`. -/
def Phase.normalized (keepStatus : Bool) (phase : Phase) : Json :=
  .ofFields [
    (js "id", some (natJson phase.id)),
    (js "name", some (.str phase.name)),
    (js "status", if keepStatus then some (.str phase.status.text) else none),
    (js "required_agents", phase.requiredAgents.map fun as => stringsJson (sortStrings as)),
    (js "tasks", some (.arr (phase.tasks.map (Task.normalized keepStatus))))]

/-- The object both digests print; `specMtime` and `specHash` are left out. -/
def Plan.normalized (keepStatus : Bool) (plan : Plan) : Json :=
  .ofFields [
    (js "schema_version", some (.str (js "1.0.0"))),
    (js "title", some (.str plan.title)),
    (js "swarm", some (.str plan.swarm)),
    (js "current_phase", plan.currentPhase.map natJson),
    (js "migration_status", plan.migrationStatus.map fun s => .str s.text),
    (js "execution_profile", plan.executionProfile.map ExecutionProfile.normalizedForHash),
    (js "phases", some (.arr (plan.phases.map (Phase.normalized keepStatus))))]

section Digest

variable (sha256 : JsString → JsString)

/-- The ledger digest: statuses included. -/
def computePlanLedgerHash (plan : Plan) : JsString :=
  sha256 (plan.normalized true).stringify

/-- The approval baseline: statuses excluded. -/
def computePlanStructureHash (plan : Plan) : JsString :=
  sha256 (plan.normalized false).stringify

end Digest

/-! ## What a digest pins

The records below list the hashed fields with the sorted lists read as
multisets.  They are the abstract side of the digests: two plans have one
normalized object exactly when they have one record. -/

structure HashedTask where
  id : JsString
  phase : Nat
  status : Option TaskStatus
  size : TaskSize
  description : JsString
  depends : Multiset JsString
  acceptance : Option JsString
  filesTouched : Multiset JsString
  evidencePath : Option JsString
  blockedReason : Option JsString
  evidenceClass : Option EvidenceClass
  evidenceAnchors : Option (List ExternalEvidenceAnchor)

structure HashedPhase where
  id : Nat
  name : JsString
  status : Option PhaseStatus
  requiredAgents : Option (Multiset JsString)
  tasks : List HashedTask

structure HashedPlan where
  title : JsString
  swarm : JsString
  currentPhase : Option Nat
  migrationStatus : Option MigrationStatus
  executionProfile : Option ExecutionProfile
  phases : List HashedPhase

def Task.hashed (keepStatus : Bool) (task : Task) : HashedTask where
  id := task.id
  phase := task.phase
  status := if keepStatus then some task.status else none
  size := task.size
  description := task.description
  depends := task.depends
  acceptance := task.acceptance
  filesTouched := task.filesTouched
  evidencePath := task.evidencePath
  blockedReason := task.blockedReason
  evidenceClass := task.evidenceClass
  evidenceAnchors := task.evidenceAnchors

def Phase.hashed (keepStatus : Bool) (phase : Phase) : HashedPhase where
  id := phase.id
  name := phase.name
  status := if keepStatus then some phase.status else none
  requiredAgents := phase.requiredAgents.map Multiset.ofList
  tasks := phase.tasks.map (Task.hashed keepStatus)

def Plan.hashed (keepStatus : Bool) (plan : Plan) : HashedPlan where
  title := plan.title
  swarm := plan.swarm
  currentPhase := plan.currentPhase
  migrationStatus := plan.migrationStatus
  executionProfile := plan.executionProfile
  phases := plan.phases.map (Phase.hashed keepStatus)

/-! ### Injectivity, bottom up -/

theorem natJson_inj {m n : Nat} : natJson m = natJson n ↔ m = n := by
  simp [natJson]

theorem map_str_injective : Function.Injective (List.map Json.str) :=
  List.map_injective_iff.mpr fun _ _ => Json.str.inj

theorem stringsJson_sort_eq_iff {xs ys : List JsString} :
    stringsJson (sortStrings xs) = stringsJson (sortStrings ys)
      ↔ (xs : Multiset JsString) = ys := by
  rw [stringsJson, stringsJson, Json.arr.injEq, map_str_injective.eq_iff,
    sortStrings_eq_iff_perm, Multiset.coe_eq_coe]

/-- Mapping two functions that identify the same arguments identifies the same
    options. -/
theorem option_map_eq_map_iff {α β γ : Type*} {f : α → β} {g : α → γ}
    (h : ∀ a b, f a = f b ↔ g a = g b) {o o' : Option α} :
    o.map f = o'.map f ↔ o.map g = o'.map g := by
  cases o <;> cases o' <;> simp [h]

theorem list_map_eq_map_iff {α β γ : Type*} {f : α → β} {g : α → γ}
    (h : ∀ a b, f a = f b ↔ g a = g b) {l l' : List α} :
    l.map f = l'.map f ↔ l.map g = l'.map g := by
  induction l generalizing l' with
  | nil => cases l' <;> simp
  | cons a l ih =>
    cases l' with
    | nil => simp
    | cons b l' => simp only [List.map_cons, List.cons.injEq, h, ih]

theorem option_map_str_inj {o o' : Option JsString} :
    o.map Json.str = o'.map Json.str ↔ o = o' :=
  (Option.map_injective fun _ _ => Json.str.inj).eq_iff

theorem ExternalEvidenceAnchor.json_injective : Function.Injective ExternalEvidenceAnchor.json := by
  intro a b h
  have hfields := (Json.ofFields_eq_iff (by rfl) (by exact of_decide_eq_true rfl)).mp h
  simp only [List.cons.injEq, Prod.mk.injEq, true_and, Option.some.injEq, Json.str.injEq,
    option_map_str_inj, and_true] at hfields
  cases a
  cases b
  simp_all

theorem ExecutionProfile.normalizedForHash_injective :
    Function.Injective ExecutionProfile.normalizedForHash := by
  intro a b h
  have hfields := (Json.ofFields_eq_iff (by rfl) (by exact of_decide_eq_true rfl)).mp h
  simp only [List.cons.injEq, Prod.mk.injEq, true_and, Option.some.injEq, Json.bool.injEq,
    natJson_inj, and_true] at hfields
  obtain ⟨hpar, hmax, hcouncil, hlocked, hauto, hcommit, hprofile⟩ := hfields
  have hcommit' : a.commitAfterEachCompletedTask = b.commitAfterEachCompletedTask := by
    cases ha : a.commitAfterEachCompletedTask <;> cases hb : b.commitAfterEachCompletedTask <;>
      simp [ha, hb] at hcommit ⊢
  have hprofile' : a.planningProfile = b.planningProfile :=
    Option.map_injective (fun _ _ h => PlanningProfile.text_injective (Json.str.inj h)) hprofile
  cases a
  cases b
  simp_all

theorem Task.normalized_eq_iff (keepStatus : Bool) (a b : Task) :
    a.normalized keepStatus = b.normalized keepStatus
      ↔ a.hashed keepStatus = b.hashed keepStatus := by
  have hanchors : Function.Injective
      (fun as : List ExternalEvidenceAnchor => Json.arr (as.map ExternalEvidenceAnchor.json)) :=
    fun _ _ h => List.map_injective_iff.mpr ExternalEvidenceAnchor.json_injective (Json.arr.inj h)
  have hclass : Function.Injective (fun c : EvidenceClass => Json.str c.text) :=
    fun _ _ h => EvidenceClass.text_injective (Json.str.inj h)
  have hfields : a.normalized keepStatus = b.normalized keepStatus ↔ _ :=
    Json.ofFields_eq_iff (by rfl) (by exact of_decide_eq_true rfl)
  rw [hfields]
  simp only [List.cons.injEq, Prod.mk.injEq, true_and, Option.some.injEq, Json.str.injEq,
    natJson_inj, option_map_str_inj, stringsJson_sort_eq_iff, TaskSize.text_injective.eq_iff,
    (Option.map_injective hclass).eq_iff, (Option.map_injective hanchors).eq_iff, and_true,
    Task.hashed, HashedTask.mk.injEq]
  cases keepStatus with
  | false => simp
  | true => simp [TaskStatus.text_injective.eq_iff]

theorem Phase.normalized_eq_iff (keepStatus : Bool) (a b : Phase) :
    a.normalized keepStatus = b.normalized keepStatus
      ↔ a.hashed keepStatus = b.hashed keepStatus := by
  have hfields : a.normalized keepStatus = b.normalized keepStatus ↔ _ :=
    Json.ofFields_eq_iff (by rfl) (by exact of_decide_eq_true rfl)
  rw [hfields]
  simp only [List.cons.injEq, Prod.mk.injEq, true_and, Option.some.injEq, Json.str.injEq,
    natJson_inj, Json.arr.injEq, and_true, Phase.hashed, HashedPhase.mk.injEq,
    option_map_eq_map_iff (fun _ _ => stringsJson_sort_eq_iff),
    list_map_eq_map_iff (Task.normalized_eq_iff keepStatus)]
  cases keepStatus with
  | false => simp
  | true => simp [PhaseStatus.text_injective.eq_iff]

/-- The normalized object determines the hashed fields and nothing else. -/
theorem Plan.normalized_eq_iff (keepStatus : Bool) (p q : Plan) :
    p.normalized keepStatus = q.normalized keepStatus
      ↔ p.hashed keepStatus = q.hashed keepStatus := by
  have hmigration : Function.Injective (fun s : MigrationStatus => Json.str s.text) :=
    fun _ _ h => MigrationStatus.text_injective (Json.str.inj h)
  have hnat : Function.Injective natJson := fun _ _ => natJson_inj.mp
  have hfields : p.normalized keepStatus = q.normalized keepStatus ↔ _ :=
    Json.ofFields_eq_iff (by rfl) (by exact of_decide_eq_true rfl)
  rw [hfields]
  simp [Plan.hashed, (Option.map_injective hnat).eq_iff, (Option.map_injective hmigration).eq_iff,
    (Option.map_injective ExecutionProfile.normalizedForHash_injective).eq_iff,
    list_map_eq_map_iff (Phase.normalized_eq_iff keepStatus)]

section Digest

variable {sha256 : JsString → JsString}

theorem sha256_normalized_eq_iff (hsha : Function.Injective sha256) (keepStatus : Bool)
    (p q : Plan) :
    sha256 (p.normalized keepStatus).stringify = sha256 (q.normalized keepStatus).stringify
      ↔ p.hashed keepStatus = q.hashed keepStatus := by
  rw [hsha.eq_iff, Json.stringify_injective.eq_iff, Plan.normalized_eq_iff]

variable {p q : Plan}

theorem computePlanLedgerHash_eq_iff (hsha : Function.Injective sha256) :
    computePlanLedgerHash sha256 p = computePlanLedgerHash sha256 q
      ↔ p.hashed true = q.hashed true :=
  sha256_normalized_eq_iff hsha true p q

theorem computePlanStructureHash_eq_iff (hsha : Function.Injective sha256) :
    computePlanStructureHash sha256 p = computePlanStructureHash sha256 q
      ↔ p.hashed false = q.hashed false :=
  sha256_normalized_eq_iff hsha false p q

end Digest

end OpencodeSwarm
