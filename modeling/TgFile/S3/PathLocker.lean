import Mathlib.Data.Finset.Sort
import Mathlib.Logic.Relation

/-! # The path locks of the S3 handlers

`pathLocker.lock` and `S3Handler.lockPaths`.  A step is one section under the locker's own mutex,
or one `Lock` or `Unlock` of an entry's mutex; any goroutines may be at any point. -/

namespace TgFile.PathLocker

variable {γ κ : Type}

/-- Where a call of `lock` stands, up to the end of the function it returns. -/
inductive Phase
  /-- At `entry.mutex.Lock`. -/
  | waiting
  | holding
  /-- After `entry.mutex.Unlock`, before the section that drops the reference. -/
  | releasing
  | done
  deriving DecidableEq

/-- A call that has taken or waits for a lock. -/
structure Call (γ κ : Type) where
  who : γ
  key : κ
  /-- The address of the entry. -/
  entry : Nat
  phase : Phase

/-- The entry of a path. -/
structure Entry where
  refs : Nat := 0
  /-- The call that has locked `mutex`. -/
  owner : Option Nat := none

/-- The locker and its calls. -/
structure State (γ κ : Type) where
  locks : κ → Option Nat := fun _ => none
  entries : Nat → Entry := fun _ => {}
  /-- The address of the next new entry. -/
  next : Nat := 0
  calls : List (Call γ κ) := []
  /-- What `lockPaths` has left to lock. -/
  todo : γ → List κ := fun _ => []

/-- What may happen next. -/
inductive Action (γ κ : Type)
  | lock (who : γ) (key : κ)
  | lockPaths (who : γ) (paths : List κ)
  /-- The next path of a `lockPaths` under way. -/
  | lockNext (who : γ)
  /-- The next step of a call; of one that holds its key, the start of its unlock. -/
  | act (index : Nat)

/-- The paths without repetitions, sorted. -/
def ordered [LinearOrder κ] (paths : List κ) : List κ := paths.toFinset.sort

namespace State

/-- The goroutine is not inside a `lock` or an unlock. -/
def Free (σ : State γ κ) (who : γ) : Prop :=
  ∀ call ∈ σ.calls, call.who = who → call.phase = .holding ∨ call.phase = .done

instance [DecidableEq γ] (σ : State γ κ) (who : γ) : Decidable (σ.Free who) :=
  inferInstanceAs (Decidable (∀ call ∈ σ.calls, _))

/-- The first section of `lock`. -/
def enter [DecidableEq κ] (σ : State γ κ) (who : γ) (key : κ) : State γ κ :=
  match σ.locks key with
  | some a => { σ with
      entries := Function.update σ.entries a
        { σ.entries a with refs := (σ.entries a).refs + 1 }
      calls := σ.calls ++ [⟨who, key, a, .waiting⟩] }
  | none => { σ with
      locks := Function.update σ.locks key (some σ.next)
      entries := Function.update σ.entries σ.next { refs := 1 }
      next := σ.next + 1
      calls := σ.calls ++ [⟨who, key, σ.next, .waiting⟩] }

/-- The call at an index goes on to a phase. -/
def put (σ : State γ κ) (index : Nat) (call : Call γ κ) (phase : Phase) : State γ κ :=
  { σ with calls := σ.calls.set index { call with phase } }

/-- Lock or unlock the mutex of an entry. -/
def setOwner (σ : State γ κ) (a : Nat) (owner : Option Nat) : State γ κ :=
  { σ with entries := Function.update σ.entries a { σ.entries a with owner } }

/-- The last section of an unlock. -/
def dropRef [DecidableEq κ] (σ : State γ κ) (key : κ) (a : Nat) : State γ κ :=
  { σ with
    entries := Function.update σ.entries a { σ.entries a with refs := (σ.entries a).refs - 1 }
    locks := if (σ.entries a).refs - 1 = 0 then Function.update σ.locks key none else σ.locks }

variable [DecidableEq γ] [LinearOrder κ]

/-- A step that cannot be taken leaves the state as it is.  A goroutine may unlock its keys in any
order, that of `lockPaths` among them. -/
def step (σ : State γ κ) : Action γ κ → State γ κ
  | .lock who key => if σ.Free who ∧ σ.todo who = [] then σ.enter who key else σ
  | .lockPaths who paths =>
    if σ.Free who ∧ σ.todo who = [] then
      { σ with todo := Function.update σ.todo who (ordered paths) }
    else σ
  | .lockNext who =>
    match σ.todo who with
    | key :: rest =>
      if σ.Free who then
        State.enter { σ with todo := Function.update σ.todo who rest } who key
      else σ
    | [] => σ
  | .act index =>
    match σ.calls[index]? with
    | some call =>
      match call.phase with
      | .waiting =>
        if (σ.entries call.entry).owner = none then
          (σ.setOwner call.entry (some index)).put index call .holding
        else σ
      | .holding =>
        if σ.Free call.who ∧ σ.todo call.who = [] then
          (σ.setOwner call.entry none).put index call .releasing
        else σ
      | .releasing => (σ.dropRef call.key call.entry).put index call .done
      | .done => σ
    | none => σ

/-- The state after actions. -/
def run (σ : State γ κ) (actions : List (Action γ κ)) : State γ κ := actions.foldl step σ

/-- A goroutine waits for a key that the other holds. -/
def WaitsFor (σ : State γ κ) (who other : γ) : Prop :=
  ∃ call ∈ σ.calls, ∃ held ∈ σ.calls, call.who = who ∧ held.who = other ∧ call.key = held.key ∧
    call.phase = .waiting ∧ held.phase = .holding

/-- If the goroutine starts a `lock` or `lockPaths`, it holds nothing. -/
def StartsFree (σ : State γ κ) (who : γ) : Action γ κ → Prop
  | .lock caller _ | .lockPaths caller _ =>
    caller = who → ∀ call ∈ σ.calls, call.who = who → call.phase = .done
  | _ => True

/-- In a run the goroutine holds several keys only through `lockPaths`. -/
def OnlyLockPaths (who : γ) : State γ κ → List (Action γ κ) → Prop
  | _, [] => True
  | σ, action :: actions => σ.StartsFree who action ∧ OnlyLockPaths who (σ.step action) actions

end State

variable {σ : State γ κ} {call : Call γ κ} {index : Nat} {who : γ} {key : κ}

/-- The call counts as a reference to the entry. -/
def Call.uses (a : Nat) (call : Call γ κ) : Bool := call.entry = a ∧ call.phase ≠ .done

/-- The references of the calls are the counts of the entries, and lead to the entries that the
map has for their keys. -/
structure Inv (σ : State γ κ) : Prop where
  counted : ∀ a, (σ.entries a).refs = σ.calls.countP (Call.uses a)
  mapped : ∀ call ∈ σ.calls, call.phase ≠ .done → σ.locks call.key = some call.entry
  fresh : ∀ key a, σ.locks key = some a → a < σ.next
  apart : ∀ key other a, σ.locks key = some a → σ.locks other = some a → key = other
  used : ∀ key a, σ.locks key = some a → 0 < (σ.entries a).refs
  owned : ∀ (index : Nat) call, σ.calls[index]? = some call → call.phase = .holding →
    (σ.entries call.entry).owner = some index

attribute [grind →] Inv.mapped Inv.fresh Inv.apart Inv.used Inv.owned

lemma countP_put {calls : List (Call γ κ)} (placed : calls[index]? = some call)
    (live : call.phase ≠ .done) (phase : Phase) (a : Nat) :
    (calls.set index { call with phase }).countP (Call.uses a) =
      calls.countP (Call.uses a) - if call.entry = a ∧ phase = .done then 1 else 0 := by
  obtain ⟨bound, rfl⟩ := List.getElem?_eq_some_iff.mp placed
  rw [List.countP_set bound]
  by_cases own : calls[index].entry = a
  · have used : Call.uses a calls[index] = true := by simp [Call.uses, own, live]
    have positive := List.countP_pos_iff.mpr ⟨_, List.getElem_mem bound, used⟩
    cases phase <;> simp [Call.uses, own, live] <;> omega
  · simp [Call.uses, own]

namespace Inv

variable (inv : Inv σ)
include inv

lemma enter [DecidableEq κ] (who : γ) (key : κ) : Inv (σ.enter who key) := by
  have counted := inv.counted
  unfold State.enter
  cases found : σ.locks key with
  | some a => constructor <;> grind [Call.uses]
  | none =>
    have unused : σ.calls.countP (Call.uses σ.next) = 0 := by
      refine List.countP_eq_zero.mpr fun call member uses => ?_
      obtain ⟨same, live⟩ := of_decide_eq_true uses
      exact (inv.fresh _ _ (inv.mapped call member live)).ne same
    constructor <;> grind [Call.uses]

variable (placed : σ.calls[index]? = some call)
include placed

/-- `Lock` and `Unlock` of an entry's mutex. -/
lemma setOwner (live : call.phase ≠ .done) (phase : Phase) (goes : phase ≠ .done)
    (owner : Option Nat) (owned : ∀ (other : Nat) held, other ≠ index →
      σ.calls[other]? = some held → held.phase = .holding → held.entry ≠ call.entry)
    (own : phase = .holding → owner = some index) :
    Inv ((σ.setOwner call.entry owner).put index call phase) := by
  have counted := inv.counted
  have after := countP_put placed live phase
  have member := List.mem_of_getElem? placed
  unfold State.put State.setOwner
  constructor <;> grind

lemma dropRef [DecidableEq κ] (leaves : call.phase = .releasing) :
    Inv ((σ.dropRef call.key call.entry).put index call .done) := by
  have live : call.phase ≠ .done := by simp [leaves]
  have known := inv.mapped call (List.mem_of_getElem? placed) live
  have counted : ∀ a, (((σ.dropRef call.key call.entry).put index call .done).entries a).refs =
      (σ.calls.set index { call with phase := .done }).countP (Call.uses a) := by
    intro a
    have before := inv.counted a
    have after := countP_put placed live .done a
    simp only [State.put, State.dropRef]
    grind
  refine ⟨counted, fun moved member goes => ?_, ?_, ?_, ?_, ?_⟩
  · have uses (same : moved.key = call.key) :
        0 < (((σ.dropRef call.key call.entry).put index call .done).entries moved.entry).refs := by
      rw [counted]
      exact List.countP_pos_iff.mpr ⟨moved, member, by simp [Call.uses, goes]⟩
    have old : moved ∈ σ.calls ∨ moved = { call with phase := .done } :=
      List.mem_or_eq_of_mem_set member
    simp only [State.put, State.dropRef] at uses ⊢
    grind
  all_goals
    simp only [State.put, State.dropRef]
    grind

omit placed in
lemma step [DecidableEq γ] [LinearOrder κ] (action : Action γ κ) : Inv (σ.step action) := by
  fun_cases State.step σ action with
  | case1 who key => exact inv.enter who key
  | case3 => exact { inv with }
  | case5 who key rest =>
    have left : Inv { σ with todo := Function.update σ.todo who rest } := { inv with }
    exact left.enter who key
  | case8 index call placed waits free =>
    refine inv.setOwner placed (by simp [waits]) .holding (by decide) _
      (fun other held _ found holds same => ?_) fun _ => rfl
    have owner := inv.owned other held found holds
    rw [same, free] at owner
    cases owner
  | case10 index call placed phase =>
    refine inv.setOwner placed (by simp [phase]) .releasing (by decide) _
      (fun other held away found holds same => ?_) (by simp)
    have owner := inv.owned other held found holds
    rw [same, inv.owned index call placed phase] at owner
    exact away (Option.some.inj owner).symm
  | case12 index call placed leaves => exact inv.dropRef placed leaves
  | _ => exact inv

end Inv

/-! ## The order of `lockPaths` -/

variable [LinearOrder κ]

/-- The open calls of a goroutine are in the order of their keys, only the last may wait, and what
is left to lock comes after them. -/
structure Rising (who : γ) (σ : State γ κ) : Prop where
  calls : ∀ (i j : Nat) a b, σ.calls[i]? = some a → σ.calls[j]? = some b → i < j →
    a.who = who → b.who = who → a.phase ≠ .done → b.phase ≠ .done →
    a.key < b.key ∧ a.phase ≠ .waiting
  todo : ∀ call ∈ σ.calls, call.who = who → call.phase ≠ .done → ∀ key ∈ σ.todo who, call.key < key
  sorted : (σ.todo who).Pairwise (· < ·)

namespace Rising

variable (rising : Rising who σ)
include rising

lemma enter {caller : γ} (first : caller = who → ∀ call ∈ σ.calls, call.who = who →
      call.phase ≠ .done → call.key < key ∧ call.phase ≠ .waiting)
    (last : caller = who → ∀ later ∈ σ.todo who, key < later) :
    Rising who (σ.enter caller key) := by
  obtain ⟨entry, calls, todo⟩ : ∃ a, (σ.enter caller key).calls =
      σ.calls ++ [⟨caller, key, a, .waiting⟩] ∧ (σ.enter caller key).todo = σ.todo := by
    unfold State.enter
    split <;> exact ⟨_, rfl, rfl⟩
  refine ⟨fun i j a b atI atJ lt => ?_, fun call member => ?_, todo ▸ rising.sorted⟩
  · have before := rising.calls i j a b
    have known := fun own => first own a
    have member := List.mem_of_getElem? (l := σ.calls) (i := i) (a := a)
    rw [calls] at atI atJ
    grind
  · have before := rising.todo call
    rw [calls] at member
    rw [todo]
    grind

/-- A call that goes on does not wait again. -/
lemma put (placed : σ.calls[index]? = some call) (live : call.phase ≠ .done) {phase : Phase}
    (goes : phase ≠ .waiting) {τ : State γ κ} (same : τ.calls = σ.calls) (left : τ.todo = σ.todo) :
    Rising who (τ.put index call phase) := by
  refine ⟨fun i j a b atI atJ lt => ?_, fun moved member => ?_, ?_⟩
  · have before := rising.calls i j
    simp only [State.put, same] at atI atJ
    grind
  · have before := rising.todo moved
    have own := rising.todo call (List.mem_of_getElem? placed)
    have old := List.mem_or_eq_of_mem_set member
    rw [same] at old
    simp only [State.put, left]
    grind
  · exact left ▸ rising.sorted

/-- What a goroutine holds comes before what it waits for. -/
lemma held_lt {held : Call γ κ} (member : call ∈ σ.calls) (other : held ∈ σ.calls)
    (own : call.who = who) (own' : held.who = who) (waits : call.phase = .waiting)
    (holds : held.phase = .holding) : held.key < call.key := by
  obtain ⟨i, atI⟩ := List.getElem?_of_mem member
  obtain ⟨j, atJ⟩ := List.getElem?_of_mem other
  have before := rising.calls i j call held atI atJ
  have after := rising.calls j i held call atJ atI
  grind

variable [DecidableEq γ]

lemma step {action : Action γ κ} (only : σ.StartsFree who action) :
    Rising who (σ.step action) := by
  have todo := rising.todo
  have sorted := rising.sorted
  fun_cases State.step σ action with
  | case1 caller key free =>
    refine rising.enter (fun own call member mine live => ?_) fun own later member => ?_
    · exact absurd (only own call member mine) live
    · rw [← own, free.2] at member
      cases member
  | case3 caller paths =>
    have ascending := (paths.toFinset.sortedLT_sort).pairwise
    refine ⟨rising.calls, ?_, ?_⟩ <;> grind [State.StartsFree, ordered, Function.update_apply]
  | case5 caller key rest left free =>
    have shorter : Rising who { σ with todo := Function.update σ.todo caller rest } := by
      refine ⟨rising.calls, ?_, ?_⟩ <;> grind [Function.update_apply]
    refine shorter.enter ?_ fun own => ?_
    · grind [State.Free]
    · subst own
      rw [left] at sorted
      simpa using (List.pairwise_cons.mp sorted).1
  | case8 _ _ placed phase | case10 _ _ placed phase | case12 _ _ placed phase =>
    exact rising.put placed (by simp [phase]) (by decide) rfl rfl
  | _ => exact rising

lemma run {actions : List (Action γ κ)} (only : σ.OnlyLockPaths who actions) :
    Rising who (σ.run actions) := by
  induction actions generalizing σ with
  | nil => exact rising
  | cons action actions ih => exact ih (rising.step only.1) only.2

end Rising

/-- **The locks exclude each other, leave nothing behind and cannot wait in a circle.** -/
theorem path_locks [DecidableEq γ] (actions : List (Action γ κ)) :
    let σ := State.run {} actions
    (∀ (i j : Nat) a b, σ.calls[i]? = some a → σ.calls[j]? = some b → a.phase = .holding →
      b.phase = .holding → a.key = b.key → i = j) ∧
    (∀ call ∈ σ.calls, call.phase ≠ .done → σ.locks call.key = some call.entry) ∧
    ((∀ call ∈ σ.calls, call.phase = .done) → ∀ key, σ.locks key = none) ∧
    ∀ who, ¬ Relation.TransGen
      (fun g h => State.OnlyLockPaths g {} actions ∧ σ.WaitsFor g h) who who := by
  intro σ
  have inv : Inv σ := List.foldlRecOn actions State.step
    ⟨fun _ => rfl, by simp, by simp, by simp, by simp, by simp⟩ fun _ inv act _ => inv.step act
  have rising (who : γ) (only : State.OnlyLockPaths who {} actions) : Rising who σ :=
    Rising.run ⟨by simp, by simp, .nil⟩ only
  refine ⟨fun i j a b atI atJ holds holds' same => ?_, inv.mapped, fun closed key => ?_,
    fun who circle => ?_⟩
  · have entry := inv.mapped a (List.mem_of_getElem? atI) (by simp [holds])
    rw [same, inv.mapped b (List.mem_of_getElem? atJ) (by simp [holds'])] at entry
    have owner := inv.owned i a atI holds
    rw [← Option.some.inj entry, inv.owned j b atJ holds'] at owner
    exact (Option.some.inj owner).symm
  · by_contra present
    obtain ⟨a, found⟩ := Option.ne_none_iff_exists'.mp present
    have used := inv.used key a found
    rw [inv.counted] at used
    obtain ⟨call, member, uses⟩ := List.countP_pos_iff.mp used
    exact (of_decide_eq_true uses).2 (closed call member)
  · -- Along the edges the keys that are waited for rise.
    have climbs : ∀ other, Relation.TransGen
        (fun g h => State.OnlyLockPaths g {} actions ∧ σ.WaitsFor g h) who other →
        State.OnlyLockPaths who {} actions ∧ ∃ call ∈ σ.calls, ∃ held ∈ σ.calls, call.who = who ∧
          held.who = other ∧ call.key ≤ held.key ∧ call.phase = .waiting ∧
          held.phase = .holding := by
      intro other path
      induction path with
      | single edge =>
        obtain ⟨only, call, member, held, inCalls, own, own', same, phases⟩ := edge
        exact ⟨only, call, member, held, inCalls, own, own', same.le, phases⟩
      | tail _ edge ih =>
        obtain ⟨only, call, member, held, inCalls, own, own', le, waits, holds⟩ := ih
        obtain ⟨only', next, inCalls', last, member', mine, mine', same, waits', holds'⟩ := edge
        have lt := (rising _ only').held_lt inCalls' inCalls mine own' waits' holds
        exact ⟨only, call, member, last, member', own, mine', (le.trans lt.le).trans same.le, waits,
          holds'⟩
    obtain ⟨only, call, member, held, inCalls, own, own', le, waits, holds⟩ := climbs who circle
    exact le.not_gt ((rising who only).held_lt member inCalls own own' waits holds)

/-- Between the two sections of an unlock nobody holds or waits, and the entry is in the map. -/
theorem released_entry_kept :
    let σ := State.run ({} : State Nat Nat) [.lock 0 7, .act 0, .act 0]
    (∀ call ∈ σ.calls, call.phase ≠ .holding ∧ call.phase ≠ .waiting) ∧ σ.locks 7 = some 0 := by
  decide

end TgFile.PathLocker
