import Mathlib.Data.List.Basic
import Mathlib.Logic.Function.Basic
import Mathlib.Order.Lattice.Nat

/-! # The metadata caches

`dao/cache` and `cacheapi.LoadMany`: reads through a cache in front of a table, and writes that
change the table and then drop the cached rows.  A step is one operation of the cache or one
statement of the database; any calls may be under way.  A row carries the number of writes to its
key so far, in the table and in the cache. -/

namespace TgFile.MetadataCache

variable {κ ν : Type}

/-- What a read has found: a key, the number of writes that the answer reflects, and the row. -/
abbrev Found (κ ν : Type) := List (κ × Nat × Option ν)

/-- Where a call stands. -/
inductive Phase (κ ν : Type)
  /-- The loop over `Get`, with the keys that were missing. -/
  | get (todo miss : List κ) (found : Found κ ν)
  /-- The loop over `Set`, in any order. -/
  | fill (todo : List (κ × Nat × ν)) (found : Found κ ν)
  | answered (found : Found κ ν)
  /-- Before the statement that changes the rows it hits; the keys to delete from the cache. -/
  | write (hits : κ → Bool) (change : κ → Option ν → Option ν) (dels : List κ)
  /-- The loop over `Del`, with the numbers of the writes made. -/
  | invalidate (todo : List κ) (wrote : κ → Nat)
  | done

/-- A call, with the numbers of the writes that had returned when it started. -/
structure Call (κ ν : Type) where
  floor : κ → Nat
  phase : Phase κ ν

/-- An answer reflects the writes that had returned when its read started. -/
def Call.coherent (call : Call κ ν) : Bool :=
  match call.phase with
  | .answered found => found.all fun e => call.floor e.1 ≤ e.2.1
  | _ => true

/-- The table, the cache and the calls under way. -/
structure State (κ ν : Type) where
  rows : κ → Nat × Option ν
  cache : κ → Option (Nat × ν)
  /-- The last write of a key whose call has returned. -/
  returned : κ → Nat
  calls : List (Call κ ν)

/-- What may happen next. -/
inductive Action (κ ν : Type)
  | read (keys : List κ)
  | write (hits : κ → Bool) (change : κ → Option ν → Option ν) (dels : List κ)
  /-- One operation of a call; whether its statement succeeds, and which row it caches next. -/
  | act (index : Nat) (succeeds : Bool) (next : Nat)
  | evict (key : κ)

/-! ## The calls -/

/-- A read of Files. -/
def getFileInfo (fileIDs : List Nat) : Action Nat ν := .read fileIDs

/-- A write of one File. -/
def markFileReady (fileID : Nat) (ready : ν → ν) : Action Nat ν :=
  .write (fun k => k = fileID) (fun _ row => row.map ready) [fileID]

/-- The removal of Files. -/
def deleteFile (fileIDs : List Nat) : Action Nat ν :=
  .write (fun k => k ∈ fileIDs) (fun _ _ => none) fileIDs

/-- A read of parts. -/
def getFilePartInfo (fileID : Nat) (parts : List Int) : Action (Nat × Int) ν :=
  .read (parts.map fun part => (fileID, part))

/-- A write of one part. -/
def createFilePart (part : Nat × Int) (item : ν) : Action (Nat × Int) ν :=
  .write (fun k => k = part) (fun _ _ => some item) [part]

/-- The method of the table itself: the cached DAO does not replace it. -/
def deleteFilePart (fileIDs : List Nat) : Action (Nat × Int) ν :=
  .write (fun k => k.1 ∈ fileIDs) (fun _ _ => none) []

namespace State

/-- An empty cache in front of a table. -/
def initial (rows : κ → Option ν) : State κ ν :=
  ⟨fun k => (0, rows k), fun _ => none, fun _ => 0, []⟩

variable (σ : State κ ν)

/-- A call goes on with another phase. -/
def put (index : Nat) (call : Call κ ν) (phase : Phase κ ν) : State κ ν :=
  { σ with calls := σ.calls.set index { call with phase } }

variable [DecidableEq κ]

/-- The next operation of a call. -/
def act (index : Nat) (call : Call κ ν) (succeeds : Bool) (next : Nat) : State κ ν :=
  match call.phase with
  | .get (k :: todo) miss found =>
    match σ.cache k with
    | some (n, v) => σ.put index call (.get todo miss (found ++ [(k, n, some v)]))
    | none => σ.put index call (.get todo (miss ++ [k]) found)
  | .get [] [] found => σ.put index call (.answered found)
  | .get [] (k :: miss) found =>
    if succeeds then
      σ.put index call (.fill
        ((k :: miss).filterMap fun k => (σ.rows k).2.map fun v => (k, (σ.rows k).1, v))
        (found ++ (k :: miss).map fun k => (k, σ.rows k)))
    else σ.put index call .done
  | .fill todo found =>
    match todo[next]? with
    | some (k, entry) =>
      { σ with cache := Function.update σ.cache k entry }.put index call
        (.fill (todo.eraseIdx next) found)
    | none => if todo = [] then σ.put index call (.answered found) else σ
  | .write hits change dels =>
    if succeeds then
      { σ with rows := fun k =>
          if hits k then ((σ.rows k).1 + 1, change k (σ.rows k).2) else σ.rows k }.put index call
        (.invalidate dels fun k => if hits k then (σ.rows k).1 + 1 else 0)
    else σ.put index call (.invalidate dels fun _ => 0)
  | .invalidate (k :: todo) wrote =>
    { σ with cache := Function.update σ.cache k none }.put index call (.invalidate todo wrote)
  | .invalidate [] wrote =>
    { σ with returned := fun k => max (σ.returned k) (wrote k) }.put index call .done
  | .answered _ | .done => σ

/-- The state after an action. -/
def step : Action κ ν → State κ ν
  | .read keys => { σ with calls := σ.calls ++ [⟨σ.returned, .get keys [] []⟩] }
  | .write hits change dels =>
    { σ with calls := σ.calls ++ [⟨σ.returned, .write hits change dels⟩] }
  | .act index succeeds next =>
    match σ.calls[index]? with
    | some call => σ.act index call succeeds next
    | none => σ
  | .evict k => { σ with cache := Function.update σ.cache k none }

/-- A call is about to cache a row of the key that reflects `n` writes. -/
def Holds (k : κ) (n : Nat) : Prop :=
  ∃ call ∈ σ.calls, ∃ todo found v, call.phase = .fill todo found ∧ (k, n, v) ∈ todo

/-- The action falls into no gap between the statement of a read and its `Set`: a `Del` comes when
no call holds an older row of the key, and rows that stay in the cache are written when they are
neither cached nor held. -/
def Calm : Action κ ν → Prop
  | .act index succeeds _ =>
    match (σ.calls[index]?).map Call.phase with
    | some (.invalidate (k :: _) wrote) => ∀ n, σ.Holds k n → wrote k ≤ n
    | some (.write hits _ dels) => succeeds = true → ∀ k, hits k = true → k ∉ dels →
        σ.cache k = none ∧ ∀ n, ¬σ.Holds k n
    | _ => True
  | _ => True

/-- The state after actions. -/
def run (actions : List (Action κ ν)) : State κ ν :=
  actions.foldl (fun σ action => σ.step action) σ

/-- Every action of a run is calm. -/
def CalmRun : State κ ν → List (Action κ ν) → Prop
  | _, [] => True
  | σ, action :: actions => σ.Calm action ∧ CalmRun (σ.step action) actions

end State

/-! ## Calm runs -/

/-- What a call has seen and made of one key: `stamp` is the number of its writes, and nothing
older than its first `settled` writes is cached or held. -/
def Phase.Sound (k : κ) (stamp settled floor : Nat) : Phase κ ν → Prop
  | .get _ _ found | .answered found => ∀ e ∈ found, e.1 = k → floor ≤ e.2.1
  | .fill todo found =>
    (∀ e ∈ found, e.1 = k → floor ≤ e.2.1) ∧ ∀ e ∈ todo, e.1 = k → settled ≤ e.2.1
  | .invalidate todo wrote => wrote k ≤ stamp ∧ (k ∉ todo → wrote k ≤ settled)
  | .write _ _ _ | .done => True

/-- No answer, present or to come, is older than the settled writes of a key. -/
structure Inv (k : κ) (σ : State κ ν) (settled : Nat) : Prop where
  rows : settled ≤ (σ.rows k).1
  returned : σ.returned k ≤ settled
  cached : ∀ n v, σ.cache k = some (n, v) → settled ≤ n
  calls : ∀ call ∈ σ.calls, call.floor k ≤ settled ∧
    call.phase.Sound k (σ.rows k).1 settled (call.floor k)

namespace Inv

variable {k : κ} {σ : State κ ν} {settled later index : Nat} {call : Call κ ν} {phase : Phase κ ν}

lemma initial (rows : κ → Option ν) : Inv k (.initial rows) 0 where
  rows := le_rfl
  returned := le_rfl
  cached _ _ found := by cases found
  calls _ member := by cases member

variable (inv : Inv k σ settled)
include inv

lemma put (member : call ∈ σ.calls) (sound : phase.Sound k (σ.rows k).1 settled (call.floor k)) :
    Inv k (σ.put index call phase) settled := by
  refine { inv with calls := fun other placed => ?_ }
  rcases List.mem_or_eq_of_mem_set placed with old | rfl
  · exact inv.calls other old
  · exact ⟨(inv.calls call member).1, sound⟩

lemma start (sound : phase.Sound k (σ.rows k).1 settled (σ.returned k)) :
    Inv k { σ with calls := σ.calls ++ [⟨σ.returned, phase⟩] } settled := by
  refine { inv with calls := fun other placed => ?_ }
  rcases List.mem_append.mp placed with old | new
  · exact inv.calls other old
  · rw [List.mem_singleton.mp new]
    exact ⟨inv.returned, sound⟩

/-- More writes become settled when nothing older is cached or held. -/
lemma raise (rows : κ → Nat × Option ν) (above : settled ≤ later) (bounded : later ≤ (rows k).1)
    (grow : (σ.rows k).1 ≤ (rows k).1) (cached : ∀ n v, σ.cache k = some (n, v) → later ≤ n)
    (held : ∀ n, σ.Holds k n → later ≤ n) : Inv k { σ with rows } later := by
  refine ⟨bounded, inv.returned.trans above, cached, ?_⟩
  rintro ⟨floor, phase⟩ member
  obtain ⟨below, sound⟩ := inv.calls _ member
  refine ⟨below.trans above, ?_⟩
  cases phase with
  | fill todo found =>
    refine ⟨sound.1, ?_⟩
    rintro ⟨_, n, v⟩ inTodo rfl
    exact held n ⟨_, member, todo, found, v, rfl, inTodo⟩
  | invalidate todo wrote =>
    exact ⟨sound.1.trans grow, fun gone => (sound.2 gone).trans above⟩
  | _ => exact sound

lemma held {n : Nat} (holds : σ.Holds k n) : settled ≤ n := by
  obtain ⟨call, member, todo, found, v, same, inTodo⟩ := holds
  have sound := (inv.calls call member).2
  rw [same] at sound
  exact sound.2 _ inTodo rfl

variable [DecidableEq κ]

/-- A cached row that is not older than what is settled, or none. -/
lemma cache (other : κ) (entry : Option (Nat × ν))
    (fresh : other = k → ∀ n v, entry = some (n, v) → settled ≤ n) :
    Inv k { σ with cache := Function.update σ.cache other entry } settled := by
  refine { inv with cached := ?_ }
  intro n v (found : Function.update σ.cache other entry k = _)
  by_cases same : other = k
  · subst same
    rw [Function.update_self] at found
    exact fresh rfl n v found
  · rw [Function.update_of_ne (Ne.symm same)] at found
    exact inv.cached n v found

lemma act (placed : σ.calls[index]? = some call) {succeeds : Bool}
    {next : Nat} (calm : σ.Calm (.act index succeeds next)) :
    ∃ later, Inv k (σ.act index call succeeds next) later := by
  have member := List.mem_of_getElem? placed
  obtain ⟨below, sound⟩ := inv.calls call member
  simp only [State.Calm, placed, Option.map_some] at calm
  obtain ⟨floor, phase⟩ := call
  cases phase with
  | get todo miss found =>
    refine ⟨settled, ?_⟩
    cases todo with
    | cons other todo =>
      cases hit : σ.cache other with
      | none =>
        simp only [State.act, hit]
        exact inv.put member sound
      | some entry =>
        simp only [State.act, hit]
        refine inv.put member (List.forall_mem_append.mpr ⟨sound, ?_⟩)
        intro e new same
        obtain rfl := List.mem_singleton.mp new
        obtain rfl : other = k := same
        exact below.trans (inv.cached _ _ hit)
    | nil =>
      cases miss with
      | nil => exact inv.put member sound
      | cons other miss =>
        simp only [State.act]
        split_ifs
        · refine inv.put member ⟨List.forall_mem_append.mpr ⟨sound, ?_⟩, ?_⟩
          · intro e inMiss same
            obtain ⟨_, -, rfl⟩ := List.mem_map.mp inMiss
            exact same ▸ below.trans inv.rows
          · intro e inTodo same
            obtain ⟨_, -, read⟩ := List.mem_filterMap.mp inTodo
            obtain ⟨v, -, rfl⟩ := Option.map_eq_some_iff.mp read
            subst same
            exact inv.rows
        · exact inv.put member trivial
  | fill todo found =>
    refine ⟨settled, ?_⟩
    simp only [State.act]
    split
    · rename_i other entry chosen
      refine (inv.cache _ (some entry) ?_).put member ⟨sound.1, fun e inRest => sound.2 e ?_⟩
      · rintro same n v ⟨⟩
        exact sound.2 _ (List.mem_of_getElem? chosen) same
      · exact List.mem_of_mem_eraseIdx inRest
    · split_ifs
      · exact inv.put member sound.1
      · exact inv
  | answered found => exact ⟨settled, inv⟩
  | done => exact ⟨settled, inv⟩
  | write hits change dels =>
    simp only [State.act]
    split_ifs with ok
    · by_cases stays : hits k = true ∧ k ∉ dels
      · obtain ⟨uncached, free⟩ := calm ok k stays.1 stays.2
        refine ⟨(σ.rows k).1 + 1, (inv.raise _ ?_ ?_ ?_ ?_ ?_).put member ?_⟩
        · exact inv.rows.trans (Nat.le_succ _)
        · simp [stays.1]
        · simp [stays.1]
        · simp [uncached]
        · exact fun n holds => absurd holds (free n)
        · simp [Phase.Sound, stays.1]
      · have rows := inv.rows
        refine ⟨settled, (inv.raise _ le_rfl ?_ ?_ inv.cached fun _ => inv.held).put member ?_⟩
        · grind
        · grind
        · by_cases hit : hits k = true <;> simp_all [Phase.Sound]
    · exact ⟨settled, inv.put member ⟨Nat.zero_le _, fun _ => Nat.zero_le _⟩⟩
  | invalidate todo wrote =>
    cases todo with
    | cons other todo =>
      have dropped := inv.cache other none (by simp)
      by_cases same : other = k
      · subst same
        refine ⟨max settled (wrote other), (dropped.raise σ.rows (le_max_left _ _)
          (max_le inv.rows sound.1) le_rfl ?_ ?_).put member
          ⟨sound.1, fun _ => le_max_right _ _⟩⟩
        · simp
        · exact fun n holds => max_le (inv.held holds) (calm n holds)
      · refine ⟨settled, dropped.put member ⟨sound.1, fun gone => sound.2 ?_⟩⟩
        simp [Ne.symm same, gone]
    | nil =>
      have ended : Inv k { σ with returned := fun k => max (σ.returned k) (wrote k) } settled :=
        { inv with returned := max_le inv.returned (sound.2 (by simp)) }
      exact ⟨settled, ended.put member trivial⟩

lemma step {action : Action κ ν} (calm : σ.Calm action) :
    ∃ later, Inv k (σ.step action) later := by
  cases action with
  | read keys => exact ⟨settled, inv.start (by simp [Phase.Sound])⟩
  | write hits change dels => exact ⟨settled, inv.start trivial⟩
  | evict other => exact ⟨settled, inv.cache other none (by simp)⟩
  | act index succeeds next =>
    simp only [State.step]
    split
    · exact inv.act ‹_› calm
    · exact ⟨settled, inv⟩

end Inv

/-- **In a calm run every read reflects the writes that returned before it started.** -/
theorem reads_reflect_returned_writes [DecidableEq κ] (rows : κ → Option ν)
    (actions : List (Action κ ν)) (calm : (State.initial rows).CalmRun actions) :
    ∀ call ∈ ((State.initial rows).run actions).calls, call.coherent = true := by
  have runs (k : κ) : ∀ σ : State κ ν, (∃ settled, Inv k σ settled) → σ.CalmRun actions →
      ∃ settled, Inv k (σ.run actions) settled := by
    clear calm
    induction actions with
    | nil => exact fun σ inv _ => inv
    | cons action actions ih =>
      intro σ inv calm
      obtain ⟨settled, inv⟩ := inv
      exact ih _ (inv.step calm.1) calm.2
  intro call member
  unfold Call.coherent
  split
  · rename_i found answered
    rw [List.all_eq_true]
    intro e inFound
    obtain ⟨settled, inv⟩ := runs e.1 _ ⟨0, .initial rows⟩ calm
    have sound := (inv.calls call member).2
    rw [answered] at sound
    exact decide_eq_true (sound e inFound rfl)
  · rfl

/-- A File is marked ready and then read. -/
theorem ready_file_read :
    ((State.initial fun _ => some 0).run [markFileReady 1 (· + 1), .act 0 true 0,
      .act 0 true 0, .act 0 true 0, getFileInfo [1], .act 1 true 0, .act 1 true 0, .act 1 true 0,
      .act 1 true 0]).calls.all Call.coherent := by
  apply List.all_eq_true.mpr
  apply reads_reflect_returned_writes
  simp [State.CalmRun, State.Calm, State.step, State.act, State.put, State.Holds, markFileReady,
    getFileInfo, State.initial]

/-- A read that fills the cache after the row has changed, and a part that is deleted while it is
cached. -/
theorem old_rows_served :
    (∃ call ∈ ((State.initial fun _ => some 0).run [getFileInfo [1], .act 0 true 0, .act 0 true 0,
      markFileReady 1 (· + 1), .act 1 true 0, .act 1 true 0, .act 1 true 0, .act 0 true 0,
      getFileInfo [1], .act 2 true 0, .act 2 true 0]).calls, call.coherent = false) ∧
    ∃ call ∈ ((State.initial fun _ => some 0).run [getFilePartInfo 1 [0], .act 0 true 0,
      .act 0 true 0, .act 0 true 0, deleteFilePart [1], .act 1 true 0, .act 1 true 0,
      getFilePartInfo 1 [0], .act 2 true 0, .act 2 true 0]).calls, call.coherent = false := by
  decide

end TgFile.MetadataCache
