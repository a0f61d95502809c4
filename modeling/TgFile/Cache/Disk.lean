import Mathlib.Algebra.Order.BigOperators.Group.List
import Mathlib.Algebra.Order.Ring.Int
import Mathlib.Algebra.Ring.Int.Defs
import Mathlib.Data.List.Nodup

/-! # The accounting of the disk cache

The sections of `filemgr/file_io_cache_disk.go` that hold its mutex, as steps of one state.  A call
of `open` holds a reference from its first section on; what it finds in the file decides which
sections follow.  Entries are named by the order in which they were admitted. -/

namespace TgFile.Disk

/-- A cached File, in the map or retired. -/
structure DiskEntry (κ : Type) where
  key : κ
  size : Int
  cost : Int
  refs : Int
  retired : Bool

/-- Where a call of `open` stands after its first section, or the reader that it returned. -/
inductive Phase
  | checking
  | invalidating
  | reading
  | releasing

/-- A reader of an entry. -/
structure Reader where
  entry : Nat
  phase : Phase

/-- What a call of `open` finds in the file of its entry. -/
inductive FileCheck
  | canceled
  | unopenable
  | corrupted
  | valid

/-- Where the check of the file leads. -/
def FileCheck.next : FileCheck → Phase
  | .canceled => .releasing
  | .unopenable => .invalidating
  | .corrupted => .invalidating
  | .valid => .reading

/-- The cache, with the calls that hold a reference and the entries whose file was handed to
`cleanupPaths`. -/
structure DiskCache (κ : Type) where
  maxCost : Int
  keyLimit : Int
  minSize : Int
  closing : Bool
  entries : κ → Option Nat
  lru : List Nat
  usedCost : Int
  heap : Nat → DiskEntry κ
  allocated : Nat
  readers : List Reader
  handed : List Nat

namespace DiskCache

variable {κ : Type} {cost size : Int}

section
variable [DecidableEq κ] (d : DiskCache κ)

/-- Change an entry. -/
def modify (p : Nat) (f : DiskEntry κ → DiskEntry κ) : DiskCache κ :=
  { d with heap := Function.update d.heap p (f (d.heap p)) }

/-- Give an entry to the remover. -/
def handOver (p : Nat) : DiskCache κ := { d with handed := d.handed ++ [p] }

/-- Take an entry out of the map; without readers it is handed over. -/
def retireLocked (p : Nat) : DiskCache κ :=
  let entry := d.heap p
  let d' := if d.entries entry.key = some p then
      { d with
        entries := Function.update d.entries entry.key none
        lru := d.lru.erase p
        usedCost := d.usedCost - entry.cost }
    else d
  let d' := d'.modify p fun entry => { entry with retired := true }
  if entry.refs = 0 then d'.handOver p else d'

/-- Retire the entry that has the key. -/
def retireExisting (key : κ) : DiskCache κ :=
  match d.entries key with
  | some existing => d.retireLocked existing
  | none => d

/-- The loop of `admit` that makes room, for as many rounds as the list has entries. -/
def evictFor (cost : Int) : Nat → DiskCache κ → DiskCache κ
  | 0, d => d
  | rounds + 1, d =>
    if d.maxCost - d.usedCost < cost then
      match d.lru.getLast? with
      | none => d
      | some oldest => evictFor cost rounds (d.retireLocked oldest)
    else d

/-- `admit`; `none` where the entry is rejected. -/
def admitEntry (key : κ) (size cost : Int) : Option (DiskCache κ) :=
  if d.closing ∨ size < 0 ∨ size ≤ d.minSize ∨ d.keyLimit < size ∨ d.maxCost < size ∨ cost ≤ 0 ∨
      d.maxCost < cost then none
  else
    let d := d.retireExisting key
    let d := evictFor cost d.lru.length d
    some { d with
      heap := Function.update d.heap d.allocated ⟨key, size, cost, 0, false⟩
      allocated := d.allocated + 1
      lru := d.allocated :: d.lru
      entries := Function.update d.entries key (some d.allocated)
      usedCost := d.usedCost + cost }

/-- The first section of `open`: the entry that it takes a reference of. -/
def openLocked (key : κ) (expectedSize : Int) : Option Nat × DiskCache κ :=
  match d.entries key with
  | none => (none, d)
  | some p =>
    if d.closing then (none, d)
    else if (d.heap p).size ≠ expectedSize then (none, d.retireLocked p)
    else (some p, { d.modify p fun entry => { entry with refs := entry.refs + 1 } with
      lru := p :: d.lru.erase p })

/-- Retire a damaged entry. -/
def invalidate (p : Nat) : DiskCache κ :=
  if d.entries (d.heap p).key = some p then d.retireLocked p
  else if (d.heap p).retired then d
  else
    let d' := d.modify p fun entry => { entry with retired := true }
    if (d.heap p).refs = 0 then d'.handOver p else d'

/-- A reader is done with an entry. -/
def release (p : Nat) : DiskCache κ :=
  let refs := (d.heap p).refs - 1
  let refs := if refs < 0 then 0 else refs
  let d' := d.modify p fun entry => { entry with refs }
  if (d.heap p).retired ∧ refs = 0 then d'.handOver p else d'

/-- One section of some caller. -/
inductive Step : DiskCache κ → DiskCache κ → Prop
  | admitEntry {d d' : DiskCache κ} (key : κ) (size cost : Int)
      (run : d.admitEntry key size cost = some d') :
      Step d d'
  | miss {d d' : DiskCache κ} (key : κ) (size : Int) (run : d.openLocked key size = (none, d')) :
      Step d d'
  | hit {d d' : DiskCache κ} (key : κ) (size : Int) {p : Nat}
      (run : d.openLocked key size = (some p, d')) :
      Step d { d' with readers := ⟨p, .checking⟩ :: d'.readers }
  | check {d : DiskCache κ} {before after : List Reader} {p : Nat} (found : FileCheck)
      (place : d.readers = before ++ ⟨p, .checking⟩ :: after) :
      Step d { d with readers := before ++ ⟨p, found.next⟩ :: after }
  | invalidate {d : DiskCache κ} {before after : List Reader} {p : Nat}
      (place : d.readers = before ++ ⟨p, .invalidating⟩ :: after) :
      Step d { d.invalidate p with readers := before ++ ⟨p, .releasing⟩ :: after }
  | close {d : DiskCache κ} {before after : List Reader} {p : Nat}
      (place : d.readers = before ++ ⟨p, .reading⟩ :: after) :
      Step d { d with readers := before ++ ⟨p, .releasing⟩ :: after }
  | release {d : DiskCache κ} {before after : List Reader} {p : Nat}
      (place : d.readers = before ++ ⟨p, .releasing⟩ :: after) :
      Step d { d.release p with readers := before ++ after }

/-- The caches that an empty one comes to. -/
inductive Reachable : DiskCache κ → Prop
  | init (maxCost keyLimit minSize : Int) (heap : Nat → DiskEntry κ) (room : 0 ≤ maxCost) :
      Reachable ⟨maxCost, keyLimit, minSize, false, fun _ => none, [], 0, heap, 0, [], []⟩
  | step {d d' : DiskCache κ} (before : Reachable d) (step : Step d d') : Reachable d'

end

/-- The number of calls and readers that hold the entry. -/
def holders (readers : List Reader) (p : Nat) : Nat := readers.countP fun reader => reader.entry = p

/-- The accounting for given numbers of holders. -/
structure Sound (d : DiskCache κ) (holders : Nat → Nat) : Prop where
  mapped : ∀ key p, d.entries key = some p ↔ p ∈ d.lru ∧ (d.heap p).key = key
  nodup : d.lru.Nodup
  total : d.usedCost = (d.lru.map fun p => (d.heap p).cost).sum
  positive : ∀ p ∈ d.lru, 0 < (d.heap p).cost
  bound : d.usedCost ≤ d.maxCost
  listed : ∀ p, p ∈ d.lru ↔ p < d.allocated ∧ (d.heap p).retired = false
  refs : ∀ p < d.allocated, (d.heap p).refs = holders p
  fresh : ∀ p, d.allocated ≤ p → holders p = 0
  handed : ∀ p, d.handed.count p =
    if p < d.allocated ∧ (d.heap p).retired = true ∧ holders p = 0 then 1 else 0

variable {d d' : DiskCache κ} {n : Nat → Nat} {p : Nat}

section
variable (sound : d.Sound n)
include sound

lemma Sound.room (fits : cost ≤ d.maxCost) (none : d.lru = []) :
    d.usedCost + cost ≤ d.maxCost := by
  rw [sound.total, none, List.map_nil, List.sum_nil]
  omega

lemma Sound.below (held : 0 < n p) : p < d.allocated := by
  by_contra above
  exact absurd (sound.fresh p (Nat.le_of_not_lt above)) (Nat.ne_of_gt held)

lemma Sound.withReaders (readers : List Reader) : Sound { d with readers } n :=
  ⟨sound.mapped, sound.nodup, sound.total, sound.positive, sound.bound, sound.listed, sound.refs,
    sound.fresh, sound.handed⟩

/-- The number of holders of an entry changes, and its file is handed over with the last one of a
retired entry. -/
lemma Sound.recount (below : p < d.allocated) (count : Nat) {lru : List Nat}
    (order : lru.Perm d.lru) (gone : (d.heap p).retired = true → 0 < n p) :
    Sound { d with
      lru
      heap := Function.update d.heap p { d.heap p with refs := count }
      handed := d.handed ++ if (d.heap p).retired = true ∧ count = 0 then [p] else [] }
      (Function.update n p count) := by
  have entry : ∀ q, ∃ refs, Function.update d.heap p { d.heap p with refs := count } q =
      { d.heap q with refs } := by
    intro q
    rw [Function.update_apply]
    split_ifs with same
    · exact ⟨count, by rw [same]⟩
    · exact ⟨(d.heap q).refs, rfl⟩
  have key : ∀ q, (Function.update d.heap p { d.heap p with refs := count } q).key =
      (d.heap q).key := fun q => by obtain ⟨refs, same⟩ := entry q; rw [same]
  have cost : ∀ q, (Function.update d.heap p { d.heap p with refs := count } q).cost =
      (d.heap q).cost := fun q => by obtain ⟨refs, same⟩ := entry q; rw [same]
  have retired : ∀ q, (Function.update d.heap p { d.heap p with refs := count } q).retired =
      (d.heap q).retired := fun q => by obtain ⟨refs, same⟩ := entry q; rw [same]
  constructor
  case mapped => simpa only [key, order.mem_iff] using sound.mapped
  case nodup => exact order.nodup_iff.mpr sound.nodup
  case total =>
    simp only [cost]
    rw [(order.map _).sum_eq]
    exact sound.total
  case positive => simpa only [cost, order.mem_iff] using sound.positive
  case bound => exact sound.bound
  case listed => simpa only [retired, order.mem_iff] using sound.listed
  case refs =>
    intro q inside
    have := sound.refs q inside
    simp only [Function.update_apply]
    grind
  case fresh =>
    intro q above
    have other : q ≠ p := by rintro rfl; exact absurd below (Nat.not_lt.mpr above)
    rw [Function.update_of_ne other]
    exact sound.fresh q above
  case handed =>
    intro q
    have := sound.handed q
    simp only [Function.update_apply, List.count_append]
    grind

lemma Sound.hold (member : p ∈ d.lru) :
    Sound { d.modify p fun entry => { entry with refs := entry.refs + 1 } with
      lru := p :: d.lru.erase p } (Function.update n p (n p + 1)) := by
  obtain ⟨below, active⟩ := (sound.listed p).mp member
  have next := sound.recount below (n p + 1) (List.perm_cons_erase member).symm
    fun retired => absurd (active.symm.trans retired) Bool.false_ne_true
  simpa [modify, sound.refs p below] using next

lemma Sound.release (held : 0 < n p) : Sound (d.release p) (Function.update n p (n p - 1)) := by
  have below := sound.below held
  have next := sound.recount below (n p - 1) (.refl _) fun _ => held
  have refs : (d.heap p).refs - 1 = (n p - 1 : Nat) := by rw [sound.refs p below]; omega
  unfold DiskCache.release
  simp only [refs, Int.not_ofNat_neg, if_false, Int.natCast_eq_zero]
  split_ifs with last
  · rwa [if_pos last] at next
  · rwa [if_neg last, List.append_nil] at next

end

variable [DecidableEq κ]

lemma retireLocked_of_mapped (mapped : d.entries (d.heap p).key = some p) :
    d.retireLocked p = { d with
      entries := Function.update d.entries (d.heap p).key none
      lru := d.lru.erase p
      usedCost := d.usedCost - (d.heap p).cost
      heap := Function.update d.heap p { d.heap p with retired := true }
      handed := d.handed ++ if (d.heap p).refs = 0 then [p] else [] } := by
  unfold DiskCache.retireLocked
  simp only [mapped, if_true]
  split_ifs
  · rfl
  · simp [modify]

section
variable (sound : d.Sound n)
include sound

lemma Sound.retireLocked (member : p ∈ d.lru) : (d.retireLocked p).Sound n := by
  have mapped := (sound.mapped _ p).mpr ⟨member, rfl⟩
  obtain ⟨below, active⟩ := (sound.listed p).mp member
  have refs := sound.refs p below
  have inside : ∀ q, q ∈ d.lru.erase p ↔ q ≠ p ∧ q ∈ d.lru := fun q => sound.nodup.mem_erase_iff
  have cost : ∀ q, (Function.update d.heap p { d.heap p with retired := true } q).cost =
      (d.heap q).cost := by
    intro q
    rw [Function.update_apply]
    split_ifs with same
    · rw [same]
    · rfl
  rw [retireLocked_of_mapped mapped]
  constructor
  case mapped =>
    intro key q
    have := sound.mapped key q
    have := sound.mapped (d.heap p).key q
    simp only [Function.update_apply, inside]
    grind
  case nodup => exact sound.nodup.erase p
  case total =>
    have := List.sum_map_erase (fun q => (d.heap q).cost) member
    simp only [cost]
    have := sound.total
    omega
  case positive =>
    intro q found
    rw [cost]
    exact sound.positive q ((inside q).mp found).2
  case bound =>
    have := sound.positive p member
    have := sound.bound
    simp only
    omega
  case listed =>
    intro q
    have := sound.listed q
    simp only [Function.update_apply, inside]
    grind
  case refs =>
    intro q found
    have := sound.refs q found
    simp only [Function.update_apply]
    grind
  case fresh => exact sound.fresh
  case handed =>
    intro q
    have := sound.handed q
    simp only [Function.update_apply, List.count_append]
    grind

/-- What the retirement of listed entries leaves alone. -/
structure Kept (d d' : DiskCache κ) : Prop where
  maxCost : d'.maxCost = d.maxCost
  allocated : d'.allocated = d.allocated
  readers : d'.readers = d.readers
  entries : ∀ key, d.entries key = none → d'.entries key = none

lemma Kept.retireLocked (member : p ∈ d.lru) : Kept d (d.retireLocked p) := by
  rw [retireLocked_of_mapped ((sound.mapped _ p).mpr ⟨member, rfl⟩)]
  refine ⟨rfl, rfl, rfl, fun key none => ?_⟩
  simp only [Function.update_apply, none, ite_self]

/-- The loop ends with room for the new entry. -/
lemma Sound.evictFor (fits : cost ≤ d.maxCost) (rounds : Nat)
    (enough : d.lru.length ≤ rounds) : (evictFor cost rounds d).Sound n ∧
      Kept d (evictFor cost rounds d) ∧
      (evictFor cost rounds d).usedCost + cost ≤ (evictFor cost rounds d).maxCost := by
  induction rounds generalizing d with
  | zero =>
    have none : d.lru = [] := List.length_eq_zero_iff.mp (by omega)
    exact ⟨sound, ⟨rfl, rfl, rfl, fun _ => id⟩, sound.room fits none⟩
  | succ rounds ih =>
    unfold DiskCache.evictFor
    split_ifs with full
    · split
      · rename_i none
        exact ⟨sound, ⟨rfl, rfl, rfl, fun _ => id⟩,
          sound.room fits (List.getLast?_eq_none_iff.mp none)⟩
      · rename_i oldest last
        have member := List.mem_of_getLast? last
        have kept := Kept.retireLocked sound member
        have shorter : (d.retireLocked oldest).lru.length = d.lru.length - 1 := by
          rw [retireLocked_of_mapped ((sound.mapped _ oldest).mpr ⟨member, rfl⟩)]
          exact List.length_erase_of_mem member
        obtain ⟨sound', kept', room⟩ :=
          ih (sound.retireLocked member) (kept.maxCost ▸ fits) (by omega)
        exact ⟨sound', ⟨kept'.maxCost.trans kept.maxCost, kept'.allocated.trans kept.allocated,
          kept'.readers.trans kept.readers, fun key => kept'.entries key ∘ kept.entries key⟩,
          room⟩
    · exact ⟨sound, ⟨rfl, rfl, rfl, fun _ => id⟩, by omega⟩

lemma Sound.push {key : κ} (new : d.entries key = none) (positive : 0 < cost)
    (room : d.usedCost + cost ≤ d.maxCost) :
    Sound { d with
      heap := Function.update d.heap d.allocated ⟨key, size, cost, 0, false⟩
      allocated := d.allocated + 1
      lru := d.allocated :: d.lru
      entries := Function.update d.entries key (some d.allocated)
      usedCost := d.usedCost + cost } n := by
  have old : ∀ q ∈ d.lru, q ≠ d.allocated := fun q member =>
    Nat.ne_of_lt ((sound.listed q).mp member).1
  have unlisted : d.allocated ∉ d.lru := fun member => old _ member rfl
  have none := sound.fresh d.allocated (Nat.le_refl _)
  constructor
  case mapped =>
    intro other q
    have := sound.mapped other q
    simp only [Function.update_apply, List.mem_cons]
    grind
  case nodup => exact List.nodup_cons.mpr ⟨unlisted, sound.nodup⟩
  case total =>
    have same : (d.lru.map fun q => (Function.update d.heap d.allocated
        ⟨key, size, cost, 0, false⟩ q).cost) = d.lru.map fun q => (d.heap q).cost :=
      List.map_congr_left fun q member => by rw [Function.update_of_ne (old q member)]
    simp only [List.map_cons, List.sum_cons, same, Function.update_self, sound.total]
    omega
  case positive =>
    intro q found
    have := sound.positive q
    simp only [Function.update_apply]
    grind
  case bound => exact room
  case listed =>
    intro q
    have := sound.listed q
    simp only [Function.update_apply, List.mem_cons]
    grind
  case refs =>
    intro q found
    have := sound.refs q
    simp only [Function.update_apply]
    grind
  case fresh => exact fun q above => sound.fresh q (by simp only at above; omega)
  case handed =>
    intro q
    have := sound.handed q
    simp only [Function.update_apply]
    grind

lemma Sound.retireExisting (key : κ) : (d.retireExisting key).Sound n ∧
    Kept d (d.retireExisting key) ∧ (d.retireExisting key).entries key = none := by
  unfold DiskCache.retireExisting
  split
  · rename_i p found
    obtain ⟨member, rfl⟩ := (sound.mapped key p).mp found
    refine ⟨sound.retireLocked member, Kept.retireLocked sound member, ?_⟩
    rw [retireLocked_of_mapped found]
    exact Function.update_self ..
  · rename_i none
    exact ⟨sound, ⟨rfl, rfl, rfl, fun _ => id⟩, none⟩

lemma Sound.admitEntry {key : κ}
    (run : d.admitEntry key size cost = some d') : d'.Sound n ∧ d'.readers = d.readers := by
  unfold DiskCache.admitEntry at run
  split_ifs at run with rejected
  simp only [not_or, Int.not_lt, Int.not_le] at rejected
  obtain ⟨_, _, _, _, _, positive, fits⟩ := rejected
  obtain ⟨sound₁, replaced, new⟩ := sound.retireExisting key
  obtain ⟨sound₂, kept, room⟩ :=
    sound₁.evictFor (replaced.maxCost ▸ fits) (d.retireExisting key).lru.length (Nat.le_refl _)
  obtain rfl := Option.some.inj run
  exact ⟨sound₂.push (kept.entries key new) positive room, kept.readers.trans replaced.readers⟩

lemma Sound.invalidate (held : 0 < n p) : Sound (d.invalidate p) n := by
  unfold DiskCache.invalidate
  split_ifs with mapped retired
  · exact sound.retireLocked ((sound.mapped _ p).mp mapped).1
  · exact sound
  all_goals
    -- An entry that is not retired is listed, and the map has it.
    have member := (sound.listed p).mpr ⟨sound.below held, Bool.eq_false_iff.mpr retired⟩
    exact absurd ((sound.mapped _ p).mpr ⟨member, rfl⟩) mapped

end

section
variable {before after : List Reader}

lemma holders_phase (old new : Phase) : holders (before ++ ⟨p, old⟩ :: after) =
    holders (before ++ ⟨p, new⟩ :: after) := by
  funext q
  simp only [holders, List.countP_append, List.countP_cons]

lemma holders_pos (phase : Phase) : 0 < holders (before ++ ⟨p, phase⟩ :: after) p :=
  List.countP_pos_iff.mpr ⟨⟨p, phase⟩, by simp, by simp⟩

lemma holders_remove (phase : Phase) :
    Function.update (holders (before ++ ⟨p, phase⟩ :: after)) p
      (holders (before ++ ⟨p, phase⟩ :: after) p - 1) = holders (before ++ after) := by
  funext q
  simp only [holders, List.countP_append, List.countP_cons, Function.update_apply]
  grind

lemma holders_add (phase : Phase) (readers : List Reader) :
    Function.update (holders readers) p (holders readers p + 1) =
      holders (⟨p, phase⟩ :: readers) := by
  funext q
  simp only [holders, List.countP_cons, Function.update_apply]
  grind

end

/-- What the first section of `open` leaves. -/
lemma Sound.openLocked (sound : d.Sound n) {key : κ} {found : Option Nat}
    (run : d.openLocked key size = (found, d')) : d'.readers = d.readers ∧
      d'.Sound (found.elim n fun p => Function.update n p (n p + 1)) := by
  unfold DiskCache.openLocked at run
  split at run
  · obtain ⟨rfl, rfl⟩ := Prod.mk.inj run
    exact ⟨rfl, sound⟩
  · rename_i p mapped
    have member := ((sound.mapped key p).mp mapped).1
    split_ifs at run
    · obtain ⟨rfl, rfl⟩ := Prod.mk.inj run
      exact ⟨rfl, sound⟩
    · obtain ⟨rfl, rfl⟩ := Prod.mk.inj run
      exact ⟨(Kept.retireLocked sound member).readers, sound.retireLocked member⟩
    · obtain ⟨rfl, rfl⟩ := Prod.mk.inj run
      exact ⟨rfl, sound.hold member⟩

/-- A step keeps the accounting. -/
lemma Step.sound (step : Step d d') (sound : d.Sound (holders d.readers)) :
    d'.Sound (holders d'.readers) := by
  cases step with
  | admitEntry _ _ _ run =>
    obtain ⟨next, readers⟩ := sound.admitEntry run
    rwa [readers]
  | miss _ _ run =>
    obtain ⟨readers, next⟩ := sound.openLocked run
    rwa [readers]
  | hit _ _ run =>
    obtain ⟨readers, next⟩ := sound.openLocked run
    rw [readers, ← holders_add]
    exact next.withReaders _
  | check found place =>
    rw [place] at sound
    exact holders_phase .checking found.next ▸ sound.withReaders _
  | close place =>
    rw [place] at sound
    exact holders_phase .reading .releasing ▸ sound.withReaders _
  | invalidate place =>
    rw [place] at sound
    exact holders_phase .invalidating .releasing ▸ (sound.invalidate (holders_pos _)).withReaders _
  | release place =>
    rw [place] at sound
    exact holders_remove .releasing ▸ (sound.release (holders_pos _)).withReaders _

/-- So every reachable cache has it. -/
lemma Reachable.sound (reachable : Reachable d) : d.Sound (holders d.readers) := by
  induction reachable with
  | init maxCost keyLimit minSize heap room =>
    exact ⟨by simp, .nil, rfl, by simp, room, by simp, by simp, fun _ _ => rfl, by simp⟩
  | step before step ih => exact step.sound ih

/-- The map and the list hold the same entries, one for each key; the used cost is the sum of their
costs and within its bound; an entry counts its holders; and its file is handed to the clean-up once
it is retired and without holders, and only once. -/
theorem disk_cache_accounting (reachable : Reachable d) :
    (∀ key p, d.entries key = some p ↔ p ∈ d.lru ∧ (d.heap p).key = key) ∧ d.lru.Nodup ∧
    d.usedCost = (d.lru.map fun p => (d.heap p).cost).sum ∧
    0 ≤ d.usedCost ∧ d.usedCost ≤ d.maxCost ∧
    (∀ p < d.allocated, (d.heap p).refs = holders d.readers p) ∧
    ∀ p, d.handed.count p =
      if p < d.allocated ∧ (d.heap p).retired = true ∧ holders d.readers p = 0 then 1 else 0 := by
  have sound := reachable.sound
  refine ⟨sound.mapped, sound.nodup, sound.total, ?_, sound.bound, sound.refs, sound.handed⟩
  rw [sound.total]
  refine List.sum_nonneg fun cost member => ?_
  obtain ⟨p, listed, rfl⟩ := List.mem_map.mp member
  exact Int.le_of_lt (sound.positive p listed)

/-- An entry is replaced while a reader holds it. -/
theorem replaced_entry_accounted : ∃ d : DiskCache Nat, Reachable d ∧ d.usedCost = 7 ∧
    d.handed = [] ∧ (d.heap 0).retired = true ∧ (d.heap 0).refs = holders d.readers 0 ∧
    d.usedCost ≤ d.maxCost := by
  have start := Reachable.init 10 9 0 (fun _ => ⟨0, 0, 0, 0, false⟩) (by decide)
  have first := start.step (.admitEntry 1 5 6 rfl)
  have held := first.step (.hit 1 5 rfl)
  have reachable := held.step (.admitEntry 1 4 7 rfl)
  have accounts := disk_cache_accounting reachable
  exact ⟨_, reachable, rfl, rfl, rfl, accounts.2.2.2.2.2.1 0 (by decide), accounts.2.2.2.2.1⟩

end DiskCache

end TgFile.Disk
