import LinkQualityFabric.Core.Status
import LinkQualityFabric.Foundations.Run

/-! The lock audit: `src/core/lock_tracker.cpp`.

A thread about to acquire a lock records an edge from every lock it holds to the new one, and a violation
where the recorded order leads back. The search for the way back is cut after 33 edges, so the audit is
sound exactly as long as every way back that is closed has a shortest one within them. -/
namespace Lqf.Locks
open Foundations Relation
set_option autoImplicit false

variable {Lock Thread : Type}

def maxHeldPerThread : ℕ := 64
def maxEdges : ℕ := 1024
def maxRecentViolations : ℕ := 16

-- A search starts at depth 0 and goes on at depth 32.
def searchLevels : ℕ := 33

structure Edge (Lock : Type) where
  source : Lock
  target : Lock
  sourceName : Text
  targetName : Text

inductive ViolationKind where
  | reentrancy | orderInversion
  deriving DecidableEq, Repr

structure LockViolation where
  kind : ViolationKind
  acquiring : Text
  held : Text
  deriving DecidableEq, Repr

structure Registry (Lock : Type) where
  edges : List (Edge Lock) := []
  names : List (Lock × Text) := []
  recent : List LockViolation := []
  violations : ℕ := 0
  reentrancy : ℕ := 0
  inversion : ℕ := 0
  edgesDropped : ℕ := 0

/-- The registry and, for every thread, the locks it holds with their names, oldest first. -/
structure Audit (Lock Thread : Type) where
  registry : Registry Lock := {}
  held : Thread → List (Lock × Text) := fun _ => []

inductive LockCall (Lock Thread : Type) where
  | beforeAcquire (thread : Thread) (id : Lock) (name : Option Text)
  | afterRelease (thread : Thread) (id : Lock)

section
variable [DecidableEq Lock] [DecidableEq Thread]

-- The first argument counts the depths the search may still enter.
def reaches (edges : List (Edge Lock)) : ℕ → Lock → Lock → Bool
  | 0, _, _ => false
  | levels + 1, source, target =>
    edges.any fun edge => edge.source = source && (edge.target = target || reaches edges levels edge.target target)

namespace Registry

def nameOf (registry : Registry Lock) (id : Lock) : Text :=
  ((registry.names.find? (·.1 = id)).map (·.2)).getD (text "unknown")

def rememberName (registry : Registry Lock) (id : Lock) (name : Text) : Registry Lock :=
  if registry.names.any (·.1 = id) then registry
  else if registry.names.length < maxEdges then { registry with names := registry.names ++ [(id, name)] }
  else registry

def note (registry : Registry Lock) (violation : LockViolation) : Registry Lock :=
  { registry with
    violations := registry.violations + 1
    reentrancy := registry.reentrancy + if violation.kind = .reentrancy then 1 else 0
    inversion := registry.inversion + if violation.kind = .orderInversion then 1 else 0
    recent := (if maxRecentViolations ≤ registry.recent.length then registry.recent.tail else registry.recent) ++
      [violation] }

def recordEdge (registry : Registry Lock) (held id : Lock) (name : Text) : Registry Lock :=
  if registry.edges.any fun edge => edge.source = held && edge.target = id then registry
  else if registry.edges.length < maxEdges then
    { registry with edges := registry.edges ++ [⟨held, id, registry.nameOf held, name⟩] }
  else { registry with edgesDropped := registry.edgesDropped + 1 }

/-- One turn of the loop of `before_acquire`: the new lock comes after one that is held. -/
def orderAfter (id : Lock) (name : Text) (registry : Registry Lock) (held : Lock × Text) : Registry Lock :=
  let noted :=
    if reaches registry.edges searchLevels id held.1 then
      registry.note ⟨.orderInversion, name, registry.nameOf held.1⟩
    else registry
  ((noted.rememberName id name).rememberName held.1 held.2).recordEdge held.1 id name

end Registry

namespace Audit

def beforeAcquire (audit : Audit Lock Thread) (thread : Thread) (id : Lock) (name : Option Text) : Audit Lock Thread :=
  let ownName := name.getD (text "unnamed")
  let held := audit.held thread
  { registry :=
      if held.any (·.1 = id) then audit.registry.note ⟨.reentrancy, ownName, ownName⟩
      else held.foldl (Registry.orderAfter id ownName) audit.registry
    held :=
      if held.length < maxHeldPerThread then Function.update audit.held thread (held ++ [(id, ownName)])
      else audit.held }

-- The newest acquisition of the lock is the one released.
def afterRelease (audit : Audit Lock Thread) (thread : Thread) (id : Lock) : Audit Lock Thread :=
  { audit with
    held := Function.update audit.held thread ((audit.held thread).reverse.eraseP (·.1 = id)).reverse }

end Audit

def machine : Machine (Audit Lock Thread) (LockCall Lock Thread) Unit where
  step
    | audit, .beforeAcquire thread id name => ((), audit.beforeAcquire thread id name)
    | audit, .afterRelease thread id => ((), audit.afterRelease thread id)

/-! ## The order and its cycles -/

def Precedes (edges : List (Edge Lock)) (a b : Lock) : Prop := ∃ edge ∈ edges, edge.source = a ∧ edge.target = b

def Acyclic {α : Type} (r : α → α → Prop) : Prop := ∀ a, ¬TransGen r a a

/-- A way over at most `count` recorded edges, given by the locks between its ends. -/
def Way (edges : List (Edge Lock)) (count : ℕ) (a b : Lock) : Prop :=
  ∃ between : List Lock, between.length < count ∧ List.IsChain (Precedes edges) (a :: between ++ [b])

/-- Where the recorded order leads from the new lock back to a held one, a shortest way does so over at most 33
edges. -/
def ShortWays (audit : Audit Lock Thread) : LockCall Lock Thread → Prop
  | .beforeAcquire thread id _ => ∀ held ∈ audit.held thread,
      TransGen (Precedes audit.registry.edges) id held.1 → Way audit.registry.edges 33 id held.1
  | .afterRelease _ _ => True

end

/-- Edges from a set of elements to one of them close a cycle exactly when that one leads to the set. -/
theorem acyclic_join {α : Type} {r s : α → α → Prop} {held : α → Prop} {new : α}
    (hjoin : ∀ a b, s a b ↔ r a b ∨ held a ∧ b = new) :
    Acyclic s ↔ Acyclic r ∧ ∀ a, held a → ¬ReflTransGen r new a := by
  have hmono : ∀ a b, r a b → s a b := fun a b h => (hjoin a b).mpr (.inl h)
  constructor
  · intro h
    refine ⟨fun a hcycle => h a (TransGen.mono hmono _ _ hcycle), fun a ha hback => h new ?_⟩
    exact .tail' (ReflTransGen.mono hmono _ _ hback) ((hjoin a new).mpr (.inr ⟨ha, rfl⟩))
  · rintro ⟨hr, hheld⟩ a hcycle
    -- A path either uses old edges only, or enters the new element from the set for a last time.
    have hpath {x y : α} (h : TransGen s x y) :
        TransGen r x y ∨ (∃ b, held b ∧ ReflTransGen r x b) ∧ ReflTransGen r new y := by
      induction h with
      | single hstep =>
        rcases (hjoin _ _).mp hstep with hold | ⟨hb, rfl⟩
        · exact .inl (.single hold)
        · exact .inr ⟨⟨_, hb, .refl⟩, .refl⟩
      | tail _ hstep ih =>
        rcases (hjoin _ _).mp hstep with hold | ⟨hb, rfl⟩
        · exact ih.imp (·.tail hold) fun ⟨hfrom, hto⟩ => ⟨hfrom, hto.tail hold⟩
        · exact .inr ⟨ih.elim (fun h => ⟨_, hb, h.to_reflTransGen⟩) (·.1), .refl⟩
    rcases hpath hcycle with hold | ⟨⟨b, hb, hto⟩, hfrom⟩
    · exact hr a hold
    · exact hheld b hb (hfrom.trans hto)

/-! ## One acquisition -/

variable [DecidableEq Lock] [DecidableEq Thread]

theorem reaches_iff_way {edges : List (Edge Lock)} {levels : ℕ} {a b : Lock} :
    reaches edges levels a b = true ↔ Way edges levels a b := by
  induction levels generalizing a with
  | zero => simp [reaches, Way]
  | succ levels ih =>
    simp only [reaches, List.any_eq_true, Bool.and_eq_true, Bool.or_eq_true, decide_eq_true_eq, ih]
    constructor
    · rintro ⟨edge, hedge, rfl, rfl | ⟨between, hlength, hchain⟩⟩
      · exact ⟨[], Nat.succ_pos _, .cons_cons ⟨edge, hedge, rfl, rfl⟩ (.singleton _)⟩
      · exact ⟨edge.target :: between, Nat.succ_lt_succ hlength, .cons_cons ⟨edge, hedge, rfl, rfl⟩ hchain⟩
    · rintro ⟨between, hlength, hchain⟩
      cases between with
      | nil =>
        obtain ⟨edge, hedge, hsource, htarget⟩ := (List.isChain_cons_cons.mp hchain).1
        exact ⟨edge, hedge, hsource, .inl htarget⟩
      | cons next rest =>
        obtain ⟨⟨edge, hedge, hsource, rfl⟩, hrest⟩ := List.isChain_cons_cons.mp hchain
        exact ⟨edge, hedge, hsource, .inr ⟨rest, Nat.lt_of_succ_lt_succ hlength, hrest⟩⟩

theorem reaches_mono {edges edges' : List (Edge Lock)} (hsub : edges ⊆ edges') {levels : ℕ} {a b : Lock}
    (h : reaches edges levels a b = true) : reaches edges' levels a b = true := by
  induction levels generalizing a with
  | zero => exact h
  | succ levels ih =>
    simp only [reaches, List.any_eq_true, Bool.and_eq_true, Bool.or_eq_true] at h ⊢
    obtain ⟨edge, hedge, hsource, htarget⟩ := h
    exact ⟨edge, hsub hedge, hsource, htarget.imp_right ih⟩

/-- What turns of the loop for the locks `held` leave behind: no counter falls, no edge is lost, and
without a violation or a dropped edge nothing was found and exactly the edges to the new lock are added. -/
structure Orders (new : Lock) (held : List (Lock × Text)) (before after : Registry Lock) : Prop where
  violations : before.violations ≤ after.violations
  dropped : before.edgesDropped ≤ after.edgesDropped
  kept : before.edges ⊆ after.edges
  unseen : after.violations = before.violations → ∀ lock ∈ held, ¬reaches before.edges searchLevels new lock.1
  precedes : after.edgesDropped = before.edgesDropped → ∀ a b, Precedes after.edges a b ↔
    Precedes before.edges a b ∨ (∃ lock ∈ held, lock.1 = a) ∧ b = new

variable {new : Lock} {before middle after : Registry Lock}

theorem Orders.append {xs ys : List (Lock × Text)} (h : Orders new xs before middle) (h' : Orders new ys middle after) :
    Orders new (xs ++ ys) before after := by
  have hviolations := h.violations
  have hviolations' := h'.violations
  have hdropped := h.dropped
  have hdropped' := h'.dropped
  refine ⟨by omega, by omega, List.Subset.trans h.kept h'.kept, fun heq => ?_, fun heq a b => ?_⟩
  · refine List.forall_mem_append.mpr ⟨h.unseen (by omega), fun lock hlock hreaches => ?_⟩
    exact h'.unseen (by omega) lock hlock (reaches_mono h.kept hreaches)
  · rw [h'.precedes (by omega), h.precedes (by omega)]
    simp only [List.mem_append, or_and_right, exists_or, or_assoc]

variable (registry : Registry Lock) (audit : Audit Lock Thread)

theorem rememberName_only (id : Lock) (name : Text) :
    ∃ names, registry.rememberName id name = { registry with names := names } := by
  unfold Registry.rememberName
  split_ifs
  · exact ⟨_, rfl⟩
  · exact ⟨_, rfl⟩
  · exact ⟨_, rfl⟩

theorem recordEdge_orders {registry noted : Registry Lock} {lock : Lock × Text} (hedges : noted.edges = registry.edges)
    (hdropped : noted.edgesDropped = registry.edgesDropped) (hviolations : registry.violations ≤ noted.violations)
    (hunseen : noted.violations = registry.violations → ¬reaches registry.edges searchLevels new lock.1) (name : Text) :
    Orders new [lock] registry (noted.recordEdge lock.1 new name) := by
  have hone (heq : noted.violations = registry.violations) :=
    (List.forall_mem_singleton (p := fun lock : Lock × Text =>
      ¬reaches registry.edges searchLevels new lock.1)).mpr (hunseen heq)
  unfold Registry.recordEdge
  split_ifs with hpresent hroom
  · refine ⟨hviolations, hdropped.ge, by simp [hedges], hone, fun _ a b => ?_⟩
    simp only [hedges, List.any_eq_true, Bool.and_eq_true, decide_eq_true_eq] at hpresent ⊢
    refine (or_iff_left_of_imp ?_).symm
    rintro ⟨⟨_, hlock, rfl⟩, rfl⟩
    rwa [List.mem_singleton.mp hlock]
  · refine ⟨hviolations, hdropped.ge, ?_, hone, fun _ a b => ?_⟩
    · simp [hedges]
    · simp [Precedes, hedges, or_and_right, exists_or, eq_comm]
  · exact ⟨hviolations, hdropped.ge.trans (Nat.le_succ _), by simp [hedges], hone, fun heq => by simp at heq; omega⟩

theorem orderAfter_orders (lock : Lock × Text) (name : Text) :
    Orders new [lock] registry (registry.orderAfter new name lock) := by
  unfold Registry.orderAfter
  extract_lets noted
  obtain ⟨names, hnames⟩ := rememberName_only noted new name
  obtain ⟨names', hnames'⟩ := rememberName_only { noted with names := names } lock.1 lock.2
  rw [hnames, hnames']
  by_cases hreaches : reaches registry.edges searchLevels new lock.1 = true
  · have hnoted : noted = registry.note ⟨.orderInversion, name, registry.nameOf lock.1⟩ := if_pos hreaches
    rw [hnoted]
    refine recordEdge_orders ?_ ?_ ?_ ?_ name
    exacts [rfl, rfl, Nat.le_succ _, fun heq => absurd heq (Nat.succ_ne_self _)]
  · have hnoted : noted = registry := if_neg hreaches
    rw [hnoted]
    refine recordEdge_orders ?_ ?_ ?_ ?_ name
    exacts [rfl, rfl, Nat.le_refl _, fun _ => hreaches]

theorem foldl_orders (held : List (Lock × Text)) (name : Text) :
    Orders new held registry (held.foldl (Registry.orderAfter new name) registry) := by
  induction held generalizing registry with
  | nil => exact ⟨Nat.le_refl _, Nat.le_refl _, List.Subset.refl _, by simp, by simp⟩
  | cons lock rest ih => exact (orderAfter_orders registry lock name).append (ih _)

/-! ## Whole runs -/

/-- Calls without a violation or a dropped edge keep the order acyclic exactly when `seen` holds. -/
structure Sound (seen : Prop) (before after : Audit Lock Thread) : Prop where
  violations : before.registry.violations ≤ after.registry.violations
  dropped : before.registry.edgesDropped ≤ after.registry.edgesDropped
  acyclic : after.registry.violations = before.registry.violations →
    after.registry.edgesDropped = before.registry.edgesDropped →
    (Acyclic (Precedes after.registry.edges) ↔ Acyclic (Precedes before.registry.edges) ∧ seen)

theorem step_sound (call : LockCall Lock Thread) : Sound (ShortWays audit call) audit (machine.step audit call).2 := by
  cases call with
  | afterRelease thread id => exact ⟨Nat.le_refl _, Nat.le_refl _, fun _ _ => (and_iff_left trivial).symm⟩
  | beforeAcquire thread id name =>
    by_cases hheld : (audit.held thread).any (·.1 = id)
    · refine ⟨?_, ?_, fun heq => ?_⟩ <;> simp_all [machine, Audit.beforeAcquire, Registry.note]
    · have horders := @foldl_orders _ _ id audit.registry (audit.held thread) (name.getD (text "unnamed"))
      rw [← show (machine.step audit (.beforeAcquire thread id name)).2.registry = _ from if_neg hheld] at horders
      refine ⟨horders.violations, horders.dropped, fun hviolations hdropped => ?_⟩
      rw [acyclic_join (horders.precedes hdropped)]
      refine and_congr_right fun _ => ⟨?_, ?_⟩
      · exact fun hnone lock hlock hback => absurd hback.to_reflTransGen (hnone lock.1 ⟨lock, hlock, rfl⟩)
      · rintro hshort _ ⟨lock, hlock, rfl⟩ hback
        rcases reflTransGen_iff_eq_or_transGen.mp hback with hsame | hpath
        · exact hheld (List.any_eq_true.mpr ⟨lock, hlock, by simpa using hsame⟩)
        · exact horders.unseen hviolations lock hlock (reaches_iff_way.mpr (hshort lock hlock hpath))

theorem run_sound (calls : List (LockCall Lock Thread)) :
    Sound (machine.Meets ShortWays audit calls) audit (machine.final audit calls) := by
  induction calls generalizing audit with
  | nil => exact ⟨Nat.le_refl _, Nat.le_refl _, fun _ _ => (and_iff_left trivial).symm⟩
  | cons call rest ih =>
    obtain ⟨hviolations, hdropped, hstep⟩ := step_sound audit call
    obtain ⟨hviolations', hdropped', hrest⟩ := ih (machine.step audit call).2
    refine ⟨hviolations.trans hviolations', hdropped.trans hdropped', fun hfound hlost => ?_⟩
    rw [Machine.final_cons] at hfound hlost ⊢
    rw [hrest (by omega) (by omega), hstep (by omega) (by omega), and_assoc]
    rfl

theorem acyclic_iff_ways_short (calls : List (LockCall Lock Thread))
    (hviolations : (machine.final {} calls).registry.violations = 0)
    (hdropped : (machine.final {} calls).registry.edgesDropped = 0) :
    Acyclic (Precedes (machine.final {} calls).registry.edges) ↔ machine.Meets ShortWays {} calls := by
  rw [(run_sound {} calls).acyclic hviolations hdropped]
  refine and_iff_right fun a hcycle => ?_
  obtain ⟨b, ⟨edge, hedge, -⟩, -⟩ := TransGen.head'_iff.mp hcycle
  cases hedge

def twoThreads : List (LockCall ℕ Bool) :=
  [.beforeAcquire true 0 none, .beforeAcquire true 1 none, .beforeAcquire false 1 none, .beforeAcquire false 2 none,
    .afterRelease true 1, .beforeAcquire true 2 none]

theorem two_threads_acyclic : (machine.final {} twoThreads).registry.edges.length = 3 ∧
    Acyclic (Precedes (machine.final {} twoThreads).registry.edges) := by
  have hlast (audit : Audit ℕ Bool) (thread : Bool) (id : ℕ) (hlast : ∀ edge ∈ audit.registry.edges, edge.source ≠ id) :
      ShortWays audit (.beforeAcquire thread id none) := by
    intro held _ hback
    obtain ⟨_, ⟨edge, hedge, hsource, -⟩, -⟩ := TransGen.head'_iff.mp hback
    exact absurd hsource (hlast edge hedge)
  refine ⟨by decide, (acyclic_iff_ways_short twoThreads (by decide) (by decide)).mpr ?_⟩
  exact ⟨hlast _ _ _ (by decide), hlast _ _ _ (by decide), hlast _ _ _ (by decide), hlast _ _ _ (by decide), trivial,
    hlast _ _ _ (by decide), trivial⟩

def longChain : List (LockCall ℕ Unit) :=
  .beforeAcquire () 0 none ::
    (List.range 34).flatMap (fun lock => [.beforeAcquire () (lock + 1) none, .afterRelease () lock]) ++
    [.beforeAcquire () 0 none]

theorem long_cycle_unseen :
    (machine.final {} longChain).registry.violations = 0 ∧
      (machine.final {} longChain).registry.edgesDropped = 0 ∧
      ¬Acyclic (Precedes (machine.final {} longChain).registry.edges) := by
  have hedges : (machine.final {} longChain).registry.edges.map (fun edge => (edge.source, edge.target)) =
      (List.range 34).map (fun lock => (lock, lock + 1)) ++ [(34, 0)] := by decide +kernel
  have hprecedes (pair : ℕ × ℕ) (h : pair ∈ (List.range 34).map (fun lock => (lock, lock + 1)) ++ [(34, 0)]) :
      Precedes (machine.final {} longChain).registry.edges pair.1 pair.2 := by
    rw [← hedges] at h
    obtain ⟨edge, hedge, rfl⟩ := List.mem_map.mp h
    exact ⟨edge, hedge, rfl, rfl⟩
  have hchain : ∀ lock ≤ 34, ReflTransGen (Precedes (machine.final {} longChain).registry.edges) 0 lock := by
    intro lock hlock
    induction lock with
    | zero => exact .refl
    | succ lock ih => exact (ih (by omega)).tail (hprecedes (lock, lock + 1) (by simp; omega))
  exact ⟨by decide +kernel, by decide +kernel, fun hacyclic =>
    hacyclic 0 (.tail' (hchain 34 (Nat.le_refl _)) (hprecedes (34, 0) (by simp)))⟩

end Lqf.Locks
