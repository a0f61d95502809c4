import TgFile.Go.Reader

/-! # Seekable streams

`io.ReadSeeker` as a state with `Read` and `Seek`, and what it means that such a stream serves a
sequence of bytes: at any cursor it returns bytes of the sequence from there on, it ends at the end
of the sequence, and `Seek` sets the cursor. -/

namespace TgFile.Go

/-- The `whence` of `Seek`. -/
inductive Whence
  | start
  | current
  | fromEnd
  /-- Any other number. -/
  | other
  deriving DecidableEq, Repr

/-- The position that `Seek` asks for. -/
def Whence.target (whence : Whence) (length cursor offset : Int) : Int :=
  match whence with
  | .start => offset
  | .current => cursor + offset
  | .fromEnd => length + offset
  | .other => cursor

/-- A call on a stream. -/
inductive StreamCall
  | read (size : Nat)
  | seek (offset : Int) (whence : Whence)
  deriving DecidableEq, Repr

/-- What a call returned. -/
inductive StreamOutcome (ε : Type)
  | read (data : List Byte) (err : Option ε)
  | seek (result : Except ε Int)

/-- The two methods of a stream with state `τ` and errors `ε`. -/
structure ReadSeeker (ε τ : Type) where
  read : τ → Nat → (List Byte × Option ε) × τ
  seek : τ → Int → Whence → Except ε Int × τ

variable {ε τ : Type} {content : List Byte} {cursor : Nat}

namespace ReadSeeker

/-- The outcome of a call. -/
def call (stream : ReadSeeker ε τ) (f : τ) : StreamCall → StreamOutcome ε × τ
  | .read size => (.read (stream.read f size).1.1 (stream.read f size).1.2, (stream.read f size).2)
  | .seek offset whence => (.seek (stream.seek f offset whence).1, (stream.seek f offset whence).2)

/-- The outcomes of a sequence of calls. -/
def run (stream : ReadSeeker ε τ) : τ → List StreamCall → List (StreamOutcome ε) × τ
  | f, [] => ([], f)
  | f, call :: calls =>
    ((stream.call f call).1 :: (stream.run (stream.call f call).2 calls).1,
      (stream.run (stream.call f call).2 calls).2)

/-- `io.ReadFull` with a buffer of a size and a bound on the number of reads. -/
def readFull (stream : ReadSeeker ε τ) : Nat → τ → Nat → Option ((List Byte × Option ε) × τ)
  | _, f, 0 => some (([], none), f)
  | 0, _, _ + 1 => none
  | reads + 1, f, left + 1 =>
    let got := stream.read f (left + 1)
    match got.1.2 with
    | some err =>
      some ((got.1.1, if got.1.1.length < left + 1 then some err else none), got.2)
    | none =>
      (stream.readFull reads got.2 (left + 1 - got.1.1.length)).map fun later =>
        ((got.1.1 ++ later.1.1, later.1.2), later.2)

/-- Reading on returns these bytes and then the error, whatever the sizes of the buffers, if they
are not empty. -/
inductive Ends (stream : ReadSeeker ε τ) (eof : ε) : τ → List Byte → Prop
  | done {f : τ} (ended : ∀ size, 0 < size → (stream.read f size).1 = ([], some eof)) :
      Ends stream eof f []
  | read {f : τ} {data : List Byte} (goesOn : ∀ size, 0 < size → (stream.read f size).1.2 = none)
      (here : ∀ size, 0 < size → (stream.read f size).1.1 <+: data.take size)
      (later : ∀ size, 0 < size →
        Ends stream eof (stream.read f size).2 (data.drop (stream.read f size).1.1.length)) :
      Ends stream eof f data

variable {stream : ReadSeeker ε τ} {eof : ε} {f : τ} {data : List Byte}

/-- A full read takes the bytes one read after another. -/
lemma Ends.readFull (ends : stream.Ends eof f data) (size : Nat) (enough : size ≤ data.length) :
    ∃ reads f', stream.Ends eof f' (data.drop size) ∧
      ∀ more, reads ≤ more → stream.readFull more f size = some ((data.take size, none), f') := by
  induction ends generalizing size with
  | @done f ended =>
    obtain rfl := Nat.le_zero.mp enough
    exact ⟨0, f, .done ended, fun more _ => by simp [ReadSeeker.readFull]⟩
  | @read f data goesOn here later ih =>
    cases size with
    | zero => exact ⟨0, f, .read goesOn here later, fun more _ => by simp [ReadSeeker.readFull]⟩
    | succ left =>
      have positive := Nat.succ_pos left
      have front := here (left + 1) positive
      have short : (stream.read f (left + 1)).1.1.length ≤ left + 1 :=
        Nat.le_trans front.length_le (List.length_take_le _ _)
      obtain ⟨reads, f', ends, run⟩ := ih (left + 1) positive
        (left + 1 - (stream.read f (left + 1)).1.1.length)
        (by rw [List.length_drop]; omega)
      rw [List.drop_drop, Nat.add_sub_cancel' short] at ends
      refine ⟨reads + 1, f', ends, fun more bound => ?_⟩
      obtain ⟨rest, rfl⟩ := Nat.exists_eq_add_of_le' bound
      have joined : (stream.read f (left + 1)).1.1 ++
          (data.drop (stream.read f (left + 1)).1.1.length).take
            (left + 1 - (stream.read f (left + 1)).1.1.length) = data.take (left + 1) := by
        rw [← List.drop_take]
        exact List.prefix_iff_eq_append.mp front
      rw [← Nat.add_assoc, ReadSeeker.readFull, goesOn _ positive]
      simp only [run (rest + reads) (Nat.le_add_left _ _), Option.map_some, joined]

/-- After the last byte a full read returns the error. -/
lemma Ends.readFull_end (ends : stream.Ends eof f []) (size : Nat) :
    ∃ reads f', ∀ more, reads ≤ more →
      stream.readFull more f (size + 1) = some (([], some eof), f') := by
  generalize none : ([] : List Byte) = data at ends
  induction ends with
  | @done f ended =>
    refine ⟨1, (stream.read f (size + 1)).2, fun more bound => ?_⟩
    obtain ⟨rest, rfl⟩ := Nat.exists_eq_add_of_le' bound
    simp [ReadSeeker.readFull, ended]
  | @read f data goesOn here later ih =>
    subst none
    have positive := Nat.succ_pos size
    have empty : (stream.read f (size + 1)).1.1 = [] := by
      have front := here (size + 1) positive
      rwa [List.take_nil, List.prefix_nil] at front
    obtain ⟨reads, f', run⟩ := ih (size + 1) positive (by simp)
    refine ⟨reads + 1, f', fun more bound => ?_⟩
    obtain ⟨rest, rfl⟩ := Nat.exists_eq_add_of_le' bound
    rw [← Nat.add_assoc, ReadSeeker.readFull, goesOn _ positive]
    simp [empty, run (rest + reads) (Nat.le_add_left _ _)]

end ReadSeeker

/-- What a call may return over a sequence of bytes, with the cursor before and after.  A position
outside the sequence and a `whence` of no meaning may be refused. -/
inductive Serves (eof : ε) (content : List Byte) : Nat → StreamCall → StreamOutcome ε → Nat → Prop
  | read {cursor size : Nat} {data : List Byte} (fits : data.length ≤ size)
      (here : data <+: content.drop cursor) :
      Serves eof content cursor (.read size) (.read data none) (cursor + data.length)
  | done {cursor size : Nat} (reached : content.length ≤ cursor) :
      Serves eof content cursor (.read size) (.read [] (some eof)) cursor
  | seek {cursor target : Nat} {offset : Int} {whence : Whence}
      (here : whence.target content.length cursor offset = target) :
      Serves eof content cursor (.seek offset whence) (.seek (.ok target)) target
  | refused {cursor : Nat} {offset : Int} {whence : Whence} {err : ε}
      (outside : whence.target content.length cursor offset < 0 ∨
        content.length < whence.target content.length cursor offset ∨ whence = .other) :
      Serves eof content cursor (.seek offset whence) (.seek (.error err)) cursor

/-- The outcomes of a sequence of calls, one after another. -/
inductive ServesAll (eof : ε) (content : List Byte) :
    Nat → List StreamCall → List (StreamOutcome ε) → Nat → Prop
  | nil {cursor : Nat} : ServesAll eof content cursor [] [] cursor
  | cons {cursor next last : Nat} {call : StreamCall} {calls : List StreamCall}
      {outcome : StreamOutcome ε} {outcomes : List (StreamOutcome ε)}
      (first : Serves eof content cursor call outcome next)
      (later : ServesAll eof content next calls outcomes last) :
      ServesAll eof content cursor (call :: calls) (outcome :: outcomes) last

/-- A stream over a sequence of bytes: an invariant with a cursor that every call keeps, and under
which reading on comes to the end of the sequence. -/
structure Streams (stream : ReadSeeker ε τ) (eof : ε) (content : List Byte) (inv : τ → Nat → Prop) :
    Prop where
  serves : ∀ {f : τ} {cursor : Nat}, inv f cursor → ∀ call, ∃ next,
    Serves eof content cursor call (stream.call f call).1 next ∧ inv (stream.call f call).2 next
  ends : ∀ {f : τ} {cursor : Nat}, inv f cursor → stream.Ends eof f (content.drop cursor)

/-- Any calls are served from the bytes. -/
lemma Streams.run {stream : ReadSeeker ε τ} {eof : ε} {inv : τ → Nat → Prop}
    (streams : Streams stream eof content inv) {f : τ} (holds : inv f cursor)
    (calls : List StreamCall) :
    ∃ last, ServesAll eof content cursor calls (stream.run f calls).1 last ∧
      inv (stream.run f calls).2 last := by
  induction calls generalizing f cursor with
  | nil => exact ⟨cursor, .nil, holds⟩
  | cons call calls ih =>
    obtain ⟨next, first, after⟩ := streams.serves holds call
    obtain ⟨last, later, final⟩ := ih after
    exact ⟨last, .cons first later, final⟩

/-- A full read keeps the invariant, wherever it ends. -/
lemma Streams.readFull_inv {stream : ReadSeeker ε τ} {eof : ε} {inv : τ → Nat → Prop}
    (streams : Streams stream eof content inv) {reads size : Nat} {f f' : τ}
    {got : List Byte × Option ε} (holds : inv f cursor)
    (run : stream.readFull reads f size = some (got, f')) : ∃ last, inv f' last := by
  induction reads generalizing f size cursor got with
  | zero =>
    cases size with
    | zero =>
      obtain ⟨-, rfl⟩ := Prod.mk.inj (Option.some.inj run)
      exact ⟨cursor, holds⟩
    | succ left => cases run
  | succ reads ih =>
    cases size with
    | zero =>
      obtain ⟨-, rfl⟩ := Prod.mk.inj (Option.some.inj run)
      exact ⟨cursor, holds⟩
    | succ left =>
      obtain ⟨next, -, after⟩ := streams.serves holds (.read (left + 1))
      rw [ReadSeeker.readFull] at run
      cases ended : (stream.read f (left + 1)).1.2 with
      | some err =>
        simp only [ended] at run
        obtain ⟨-, rfl⟩ := Prod.mk.inj (Option.some.inj run)
        exact ⟨next, after⟩
      | none =>
        simp only [ended] at run
        obtain ⟨⟨later, last⟩, below, same⟩ := Option.map_eq_some_iff.mp run
        obtain ⟨-, rfl⟩ := Prod.mk.inj same
        exact ih after below

lemma Streams.seek_start {stream : ReadSeeker ε τ} {eof : ε} {inv : τ → Nat → Prop}
    (streams : Streams stream eof content inv) {f : τ} (holds : inv f cursor) :
    (stream.seek f 0 .start).1 = .ok 0 ∧ inv (stream.seek f 0 .start).2 0 := by
  obtain ⟨next, outcome, after⟩ := streams.serves holds (.seek 0 .start)
  simp only [ReadSeeker.call] at outcome after
  generalize (stream.seek f 0 .start).1 = result at outcome ⊢
  cases outcome with
  | seek here =>
    have zero : next = 0 := by
      simp only [Whence.target] at here
      omega
    subst zero
    exact ⟨rfl, after⟩
  | refused outside =>
    simp only [Whence.target, reduceCtorEq, or_false] at outside
    omega

/-! ## Streams inside others -/

/-- The methods of a stream on the states that come from another stream. -/
structure Embeds {τ' : Type} (stream : ReadSeeker ε τ) (outer : ReadSeeker ε τ') (embed : τ → τ') :
    Prop where
  read : ∀ f size, outer.read (embed f) size =
    ((stream.read f size).1, embed (stream.read f size).2)
  seek : ∀ f offset whence, outer.seek (embed f) offset whence =
    ((stream.seek f offset whence).1, embed (stream.seek f offset whence).2)

namespace Embeds

variable {τ' : Type} {stream : ReadSeeker ε τ} {outer : ReadSeeker ε τ'} {embed : τ → τ'}

lemma call (embeds : Embeds stream outer embed) (f : τ) (call : StreamCall) :
    outer.call (embed f) call = ((stream.call f call).1, embed (stream.call f call).2) := by
  cases call with
  | read size => simp only [ReadSeeker.call, embeds.read]
  | seek offset whence => simp only [ReadSeeker.call, embeds.seek]

lemma ends (embeds : Embeds stream outer embed) {eof : ε} {f : τ} {data : List Byte}
    (ends : stream.Ends eof f data) : outer.Ends eof (embed f) data := by
  induction ends with
  | done ended =>
    refine .done fun size positive => ?_
    rw [embeds.read]
    exact ended size positive
  | read goesOn here later ih =>
    refine .read (fun size positive => ?_) (fun size positive => ?_) fun size positive => ?_
    · rw [embeds.read]
      exact goesOn size positive
    · rw [embeds.read]
      exact here size positive
    · rw [embeds.read]
      exact ih size positive

lemma streams (embeds : Embeds stream outer embed) {eof : ε} {content : List Byte}
    {inv : τ → Nat → Prop} (streams : Streams stream eof content inv) :
    Streams outer eof content fun g cursor => ∃ f, g = embed f ∧ inv f cursor where
  serves := by
    rintro g cursor ⟨f, rfl, here⟩ call
    obtain ⟨next, serves, after⟩ := streams.serves here call
    rw [embeds.call]
    exact ⟨next, serves, _, rfl, after⟩
  ends := by
    rintro g cursor ⟨f, rfl, here⟩
    exact embeds.ends (streams.ends here)

end Embeds

/-! ## Streams over a byte slice -/

/-- `bytes.Reader`. -/
structure BytesReader where
  bytes : List Byte
  index : Int
  deriving DecidableEq, Repr

namespace BytesReader

/-- The methods, with the errors for the end and for an invalid position. -/
def stream (eof negative : ε) : ReadSeeker ε BytesReader where
  read f size :=
    if (f.bytes.length : Int) ≤ f.index then (([], some eof), f)
    else
      let data := (f.bytes.drop f.index.toNat).take size
      ((data, none), { f with index := f.index + data.length })
  seek f offset whence :=
    let target := whence.target f.bytes.length f.index offset
    if target < 0 ∨ whence = .other then (.error negative, f)
    else (.ok target, { f with index := target })

lemma streams (eof negative : ε) (content : List Byte) :
    Streams (stream eof negative) eof content fun f cursor => f = ⟨content, cursor⟩ where
  serves := by
    rintro f cursor rfl call
    cases call with
    | read size =>
      by_cases done : content.length ≤ cursor
      · have reached : (content.length : Int) ≤ cursor := by exact_mod_cast done
        refine ⟨cursor, ?_, ?_⟩
        · simp only [ReadSeeker.call, stream, if_pos reached]
          exact .done done
        · simp only [ReadSeeker.call, stream, if_pos reached]
      · have inside : ¬(content.length : Int) ≤ cursor := by exact_mod_cast done
        refine ⟨cursor + ((content.drop cursor).take size).length, ?_, ?_⟩
        · simp only [ReadSeeker.call, stream, if_neg inside, Int.toNat_natCast]
          exact .read (List.length_take_le _ _) (List.take_prefix _ _)
        · simp only [ReadSeeker.call, stream, if_neg inside, Int.toNat_natCast, Int.natCast_add]
    | seek offset whence =>
      by_cases refused : whence.target content.length cursor offset < 0 ∨ whence = .other
      · refine ⟨cursor, ?_, ?_⟩
        · simp only [ReadSeeker.call, stream, if_pos refused]
          exact .refused (refused.imp_right .inr)
        · simp only [ReadSeeker.call, stream, if_pos refused]
      · have same : ((whence.target content.length cursor offset).toNat : Int) =
            whence.target content.length cursor offset := by omega
        refine ⟨(whence.target content.length cursor offset).toNat, ?_, ?_⟩
        · simp only [ReadSeeker.call, stream, if_neg refused]
          rw [← same]
          exact .seek same.symm
        · simp only [ReadSeeker.call, stream, if_neg refused, same]
  ends := by
    rintro f cursor rfl
    -- every read returns a byte, so the rest of the slice gets shorter
    induction left : content.length - cursor using Nat.strongRecOn generalizing cursor with
    | _ left ih =>
      by_cases done : content.length ≤ cursor
      · have reached : (content.length : Int) ≤ cursor := by exact_mod_cast done
        rw [List.drop_eq_nil_of_le done]
        exact .done fun size _ => by simp only [stream, if_pos reached]
      · have inside : ¬(content.length : Int) ≤ cursor := by exact_mod_cast done
        have got : ∀ size, (stream eof negative).read ⟨content, cursor⟩ size =
            (((content.drop cursor).take size, none),
              ⟨content, (cursor + ((content.drop cursor).take size).length : Nat)⟩) := by
          intro size
          simp only [stream, if_neg inside, Int.toNat_natCast, Int.natCast_add]
        refine .read (fun size _ => by rw [got])
          (fun size _ => by simp only [got, List.prefix_rfl]) fun size positive => ?_
        have longer : 0 < ((content.drop cursor).take size).length := by
          rw [List.length_take, List.length_drop]
          omega
        rw [got, List.drop_drop]
        exact ih _ (by omega) rfl

end BytesReader

end TgFile.Go
