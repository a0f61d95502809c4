import TgFile.BlockIO.Handles

/-! # Reading damaged blocks

A backend may return any finite byte string for a block.  Reading comes to an end exactly when no
block is opened that has nothing left at the position where it is opened: the stream of a physical
File then returns nothing again and again, and a read of a composite File, at the beginning of a
later block, opens the same block for ever. -/

namespace TgFile

open Go

variable {β : Type}

/-- Reading comes to an end, whatever the buffers: every read returns, one that has to open a block
does not return nothing without an error, and an error or the end is reached. -/
inductive Settles {τ : Type} (stream : ReadSeeker StreamErr τ) (opens : τ → Prop) : τ → Prop
  | intro {f : τ}
      (returns : ∀ size, 0 < size → (stream.read f size).1.2 ≠ some .unfinished)
      (moves : opens f → ∀ size, 0 < size → (stream.read f size).1 ≠ ([], none))
      (later : ∀ size, 0 < size → (stream.read f size).1.2 = none →
        Settles stream opens (stream.read f size).2) :
      Settles stream opens f

/-- What a backend returns for the blocks of a physical File, from any position. -/
structure DamagedBlocks where
  count : Nat
  reader : Nat → Nat → Reader

namespace DamagedBlocks

/-- The reader of the block at a cursor. -/
def opened (d : DamagedBlocks) (size cursor : Nat) : Reader :=
  d.reader (cursor / size) (cursor % size)

/-- The cursor after that reader. -/
def after (d : DamagedBlocks) (size cursor : Nat) : Nat :=
  cursor + (d.opened size cursor).content.length

/-- From a cursor at which a block is opened, reading on comes to one with a property. -/
inductive Reaches (d : DamagedBlocks) (size : Nat) (step goal : Nat → Prop) : Nat → Prop
  | here {cursor : Nat} (reached : goal cursor) : Reaches d size step goal cursor
  | later {cursor : Nat} (passes : step cursor)
      (next : Reaches d size step goal (d.after size cursor)) : Reaches d size step goal cursor

/-- The backend returns these bytes, and fails for other blocks. -/
structure Returned (io : BlockIO β) (blocks : β) (b2f : Int → Except StreamErr Text) (size : Nat)
    (d : DamagedBlocks) : Prop where
  blockSize : io.maxFileSize = size
  positive : 0 < size
  few : d.count ≤ Store.maxFilePartCount.toNat
  present : ∀ index : Nat, index < d.count → ∃ key, b2f index = .ok key ∧
    ∀ pos : Nat, io.download blocks key pos = .ok (d.reader index pos)
  absent : ∀ index : Nat, d.count ≤ index → b2f index = .error .filePartNotFound
  ending : ∀ index pos, (d.reader index pos).ending = .eof

variable {io : BlockIO β} {blocks : β} {b2f : Int → Except StreamErr Text} {size : Nat}
  {d : DamagedBlocks} {f : FileStream} {cursor fsize : Nat} {r : Reader}

lemma Returned.openCurrentPart (returned : Returned io blocks b2f size d)
    (here : f.cursor = cursor) (before : f.cursor ≠ f.fsize) (inside : cursor / size < d.count) :
    f.openCurrentPart io blocks b2f = .ok (d.opened size cursor) := by
  obtain ⟨key, found, download⟩ := returned.present (cursor / size) inside
  have index : f.cursor.tdiv io.maxFileSize = ((cursor / size : Nat) : Int) := by
    rw [here, returned.blockSize, Int.tdiv_eq_ediv_of_nonneg (Int.natCast_nonneg _)]
    rfl
  have position : f.cursor.tmod io.maxFileSize = ((cursor % size : Nat) : Int) := by
    rw [here, returned.blockSize, Int.tmod_eq_emod_of_nonneg (Int.natCast_nonneg _)]
    rfl
  have sized : ¬io.maxFileSize ≤ 0 := by
    have positive := returned.positive
    rw [returned.blockSize]
    omega
  have valid : ¬(((cursor / size : Nat) : Int) < 0 ∨
      Store.maxFilePartCount < ((cursor / size : Nat) : Int)) := by
    have bound : (Store.maxFilePartCount.toNat : Int) = Store.maxFilePartCount := rfl
    have few := returned.few
    generalize cursor / size = index at inside
    omega
  rw [FileStream.openCurrentPart, if_neg before, if_neg sized, index, position]
  simp only [if_neg valid, found]
  change FileStream.retryGetDownloadStream io blocks key _ = _
  rw [FileStream.retryGetDownloadStream, download]
  rfl

lemma Returned.openCurrentPart_absent (returned : Returned io blocks b2f size d)
    (here : f.cursor = cursor) (before : f.cursor ≠ f.fsize) (outside : d.count ≤ cursor / size) :
    ∃ err, f.openCurrentPart io blocks b2f = .error err ∧ err ≠ .eof ∧ err ≠ .unfinished := by
  have index : f.cursor.tdiv io.maxFileSize = ((cursor / size : Nat) : Int) := by
    rw [here, returned.blockSize, Int.tdiv_eq_ediv_of_nonneg (Int.natCast_nonneg _)]
    rfl
  have sized : ¬io.maxFileSize ≤ 0 := by
    have positive := returned.positive
    rw [returned.blockSize]
    omega
  rw [FileStream.openCurrentPart, if_neg before, if_neg sized, index]
  simp only [returned.absent _ outside]
  split_ifs
  · exact ⟨_, rfl, by decide, by decide⟩
  · exact ⟨_, rfl, by decide, by decide⟩

/-! ## The stream of a physical File -/

/-- The block at a cursor before the end has bytes there. -/
def Passes (d : DamagedBlocks) (size fsize cursor : Nat) : Prop :=
  cursor ≠ fsize ∧ cursor / size < d.count ∧ (d.opened size cursor).content ≠ []

/-- The block at a cursor before the end has nothing there. -/
def Spent (d : DamagedBlocks) (size fsize cursor : Nat) : Prop :=
  cursor ≠ fsize ∧ cursor / size < d.count ∧ (d.opened size cursor).content = []

/-- Reading comes to a block that has nothing left where it is opened. -/
def Stalls (d : DamagedBlocks) (size fsize : Nat) : Nat → Prop :=
  d.Reaches size (d.Passes size fsize) (d.Spent size fsize)

/-- The stream is open at a cursor, and its reader ends at another one. -/
structure Open (f : FileStream) (fsize cursor : Nat) (r : Reader) : Prop where
  opened : f.isOpen = true
  fsize : f.fsize = fsize
  here : f.cursor = cursor
  reader : f.tmpReader = some r
  ending : r.ending = .eof

/-- The stream is open at a cursor without a reader. -/
structure Closed (f : FileStream) (fsize cursor : Nat) : Prop where
  opened : f.isOpen = true
  fsize : f.fsize = fsize
  here : f.cursor = cursor
  reader : f.tmpReader = none

/-- A read from a reader leaves it open, or closed at its end. -/
lemma read_reader (opened : f.isOpen = true) (fsized : f.fsize = fsize) (here : f.cursor = cursor)
    (current : f.currentReader io blocks b2f = .ok r) (ending : r.ending = .eof) (buffer : Nat) :
    (f.read io blocks b2f buffer).1 = ((r.read buffer).data, none) ∧
      (((r.read buffer).err = some .eof ∧
          Closed (f.read io blocks b2f buffer).2 fsize (cursor + r.content.length)) ∨
        ((r.read buffer).err = none ∧
          Open (f.read io blocks b2f buffer).2 fsize (cursor + (r.read buffer).data.length)
            (r.read buffer).next)) := by
  have split : r.content = (r.read buffer).data ++ (r.read buffer).next.content :=
    Reader.splits r buffer
  rw [FileStream.read_of_reader opened current ending buffer]
  refine ⟨rfl, ?_⟩
  cases err : (r.read buffer).err with
  | none =>
    exact .inr ⟨rfl, opened, fsized, by rw [here, Int.natCast_add], rfl,
      (Reader.ending_read r buffer).trans ending⟩
  | some last =>
    obtain ⟨same, empty⟩ := Reader.read_ending err
    rw [ending] at same
    subst same
    refine .inl ⟨rfl, opened, fsized, ?_, rfl⟩
    rw [split, empty, List.append_nil, here, Int.natCast_add]

/-- A reader is read to its end. -/
lemma Open.settles (open₁ : Open f fsize cursor r)
    (later : ∀ {g}, Closed g fsize (cursor + r.content.length) →
      Settles (FileStream.stream io blocks b2f) (fun g => g.handle = false) g) :
    Settles (FileStream.stream io blocks b2f) (fun g => g.handle = false) f := by
  induction weight : r.weight using Nat.strongRecOn generalizing f cursor r with
  | _ weight ih =>
    have current : f.currentReader io blocks b2f = .ok r := by
      rw [FileStream.currentReader, open₁.reader]
    have reads := read_reader open₁.opened open₁.fsize open₁.here current open₁.ending
    refine .intro (fun buffer positive => ?_) (fun idle => ?_) fun buffer positive _ => ?_
    · simp [FileStream.stream, (reads buffer).1]
    · rw [FileStream.handle, open₁.reader] at idle
      cases idle
    · rcases (reads buffer).2 with ⟨-, closed⟩ | ⟨goesOn, open₂⟩
      · exact later closed
      · refine ih _ (weight ▸ Reader.weight_read positive goesOn) open₂ (fun closed => later ?_) rfl
        have split : r.content = (r.read buffer).data ++ (r.read buffer).next.content :=
          Reader.splits r buffer
        rw [split, List.length_append, ← Nat.add_assoc]
        exact closed

/-- A download that has bytes returns some with the first read. -/
lemma Returned.brisk (returned : Returned io blocks b2f size d) (prompt : io.Prompt)
    (inside : cursor / size < d.count) (some : (d.opened size cursor).content ≠ []) :
    (d.opened size cursor).Brisk := by
  obtain ⟨key, -, download⟩ := returned.present (cursor / size) inside
  exact prompt blocks key _ _ (download (cursor % size)) some

lemma Returned.settles_closed (returned : Returned io blocks b2f size d) (prompt : io.Prompt)
    (closed : Closed f fsize cursor) (fine : ¬d.Stalls size fsize cursor) :
    Settles (FileStream.stream io blocks b2f) (fun g => g.handle = false) f := by
  induction left : d.count * size - cursor using Nat.strongRecOn generalizing f cursor with
  | _ left ih =>
    have opens : f.currentReader io blocks b2f = f.openCurrentPart io blocks b2f := by
      rw [FileStream.currentReader, closed.reader]
    -- an error ends the reading
    have failing : ∀ err, f.openCurrentPart io blocks b2f = .error err → err ≠ .unfinished →
        Settles (FileStream.stream io blocks b2f) (fun g => g.handle = false) f := by
      intro err failed notFuel
      have got : ∀ buffer, f.read io blocks b2f buffer = (([], some err), f) := by
        intro buffer
        rw [FileStream.read, if_neg (by simp [closed.opened]), opens, failed]
      refine .intro (fun buffer _ => ?_) (fun _ buffer _ => ?_) fun buffer _ none => ?_
      · simpa only [FileStream.stream, got, ne_eq, Option.some.injEq] using notFuel
      · simp [FileStream.stream, got]
      · simp only [FileStream.stream, got] at none
        cases none
    by_cases ended : cursor = fsize
    · refine failing .eof ?_ (by decide)
      rw [FileStream.openCurrentPart, if_pos (by rw [closed.here, closed.fsize, ended])]
    · have before : f.cursor ≠ f.fsize := by
        rw [closed.here, closed.fsize]
        exact_mod_cast ended
      by_cases inside : cursor / size < d.count
      · have some : (d.opened size cursor).content ≠ [] := fun none =>
          fine (.here ⟨ended, inside, none⟩)
        have brisk := returned.brisk prompt inside some
        have current := opens.trans (returned.openCurrentPart closed.here before inside)
        have ending : (d.opened size cursor).ending = .eof := returned.ending _ _
        have reads := read_reader closed.opened closed.fsize closed.here current ending
        have longer := List.length_pos_of_ne_nil some
        have room : cursor < d.count * size := (Nat.div_lt_iff_lt_mul returned.positive).mp inside
        have later : ∀ {g}, Closed g fsize (d.after size cursor) →
            Settles (FileStream.stream io blocks b2f) (fun g => g.handle = false) g := by
          intro g next
          refine ih _ ?_ next (fun stalls => fine (.later ⟨ended, inside, some⟩ stalls)) rfl
          rw [DamagedBlocks.after]
          omega
        refine .intro (fun buffer positive => ?_) (fun _ buffer positive => ?_)
          fun buffer positive _ => ?_
        · simp [FileStream.stream, (reads buffer).1]
        · simp only [FileStream.stream, (reads buffer).1]
          intro nothing
          exact some (brisk.content_nil positive (Prod.mk.inj nothing).1)
        · rcases (reads buffer).2 with ⟨-, next⟩ | ⟨-, open₂⟩
          · exact later next
          · refine open₂.settles fun next => later ?_
            have split : (d.opened size cursor).content = _ ++ _ :=
              Reader.splits (d.opened size cursor) buffer
            rw [DamagedBlocks.after, split, List.length_append, ← Nat.add_assoc]
            exact next
      · obtain ⟨err, failed, -, notFuel⟩ :=
          returned.openCurrentPart_absent closed.here before (Nat.not_lt.mp inside)
        exact failing err failed notFuel

/-- The stream is on its way to a block that has nothing left. -/
def Doomed (d : DamagedBlocks) (size fsize : Nat) (f : FileStream) : Prop :=
  (∃ cursor, Closed f fsize cursor ∧ d.Stalls size fsize cursor) ∨
    ∃ cursor r, Open f fsize cursor r ∧ d.Stalls size fsize (cursor + r.content.length)

/-- A read from a reader that ends before such a block. -/
lemma doomed_read (opened : f.isOpen = true) (fsized : f.fsize = fsize) (here : f.cursor = cursor)
    (current : f.currentReader io blocks b2f = .ok r) (ending : r.ending = .eof)
    (stalls : d.Stalls size fsize (cursor + r.content.length)) (buffer : Nat) :
    (f.read io blocks b2f buffer).1.2 = none ∧
      d.Doomed size fsize (f.read io blocks b2f buffer).2 := by
  obtain ⟨got, closed | open₂⟩ := read_reader opened fsized here current ending buffer
  · exact ⟨by rw [got], .inl ⟨_, closed.2, stalls⟩⟩
  · refine ⟨by rw [got], .inr ⟨_, _, open₂.2, ?_⟩⟩
    have split : r.content = (r.read buffer).data ++ (r.read buffer).next.content :=
      Reader.splits r buffer
    rw [split, List.length_append, ← Nat.add_assoc] at stalls
    exact stalls

lemma Returned.not_settles (returned : Returned io blocks b2f size d)
    (settles : Settles (FileStream.stream io blocks b2f) (fun g => g.handle = false) f) :
    ¬d.Doomed size fsize f := by
  induction settles with
  | @intro f returns moves later ih =>
    rintro (⟨cursor, closed, stalls⟩ | ⟨cursor, r, open₁, stalls⟩)
    · have current : cursor ≠ fsize → cursor / size < d.count →
          f.currentReader io blocks b2f = .ok (d.opened size cursor) := by
        intro before inside
        rw [FileStream.currentReader, closed.reader]
        refine returned.openCurrentPart closed.here ?_ inside
        rw [closed.here, closed.fsize]
        exact_mod_cast before
      cases stalls with
      | here spent =>
        obtain ⟨before, inside, empty⟩ := spent
        have got := (read_reader closed.opened closed.fsize closed.here (current before inside)
          (returned.ending _ _) 1).1
        have data : ((d.opened size cursor).read 1).data = [] := by
          have split : (d.opened size cursor).content = _ ++ _ :=
            Reader.splits (d.opened size cursor) 1
          rw [empty] at split
          exact (List.append_eq_nil_iff.mp split.symm).1
        rw [data] at got
        refine moves ?_ 1 Nat.one_pos got
        rw [FileStream.handle, closed.reader]
        rfl
      | later passes next =>
        obtain ⟨before, inside, -⟩ := passes
        obtain ⟨goesOn, doomed⟩ := doomed_read closed.opened closed.fsize closed.here
          (current before inside) (returned.ending _ _) next 1
        exact ih 1 Nat.one_pos goesOn doomed
    · have current : f.currentReader io blocks b2f = .ok r := by
        rw [FileStream.currentReader, open₁.reader]
      obtain ⟨goesOn, doomed⟩ := doomed_read open₁.opened open₁.fsize open₁.here current
        open₁.ending stalls 1
      exact ih 1 Nat.one_pos goesOn doomed

lemma closed_newFileStream (fsize : Nat) : Closed (FileStream.newFileStream fsize) fsize 0 :=
  ⟨rfl, rfl, rfl, rfl⟩

/-- Reading a physical File comes to an end unless it comes to a block that has nothing left. -/
lemma Returned.settles_iff (returned : Returned io blocks b2f size d) (prompt : io.Prompt)
    (fsize : Nat) :
    Settles (FileStream.stream io blocks b2f) (fun g => g.handle = false)
        (FileStream.newFileStream fsize) ↔ ¬d.Stalls size fsize 0 := by
  refine ⟨fun settles stalls => ?_, returned.settles_closed prompt (closed_newFileStream fsize)⟩
  exact returned.not_settles settles (.inl ⟨0, closed_newFileStream fsize, stalls⟩)

end DamagedBlocks

end TgFile
