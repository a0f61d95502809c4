import Mathlib.Algebra.Ring.Int.Defs
import Mathlib.Algebra.Ring.Nat
import Mathlib.Data.List.Basic
import Mathlib.Data.List.Induction

/-! # Lexical path functions of the Go standard library

`path.Clean`, `path.Dir`, `path.Base`, `path.Join` and the `strings` helpers used next to them,
over texts as lists of characters.  An absolute text denotes the list of its `elements`; `render`
writes such a list back, and `clean` is the composition of the two. -/

namespace TgFile.Go

/-- A Go string that holds valid UTF-8, as the list of its characters. -/
abbrev Text := List Char

/-- A property of the characters of a text is decided one by one, not over all of `Char`. -/
instance (priority := 2000) decidableForallChar (p : Char → Prop) [DecidablePred p]
    (s : List Char) : Decidable (∀ c ∈ s, p c) :=
  List.decidableBAll p s

instance (priority := 2000) decidableForallCharOption (p : Char → Prop) [DecidablePred p]
    (c : Option Char) : Decidable (∀ d ∈ c, p d) :=
  Option.decidableForallMem c

instance (priority := 2000) lawfulBEqText : LawfulBEq (List Char) := inferInstance

/-- `len(s)`: the number of bytes of the UTF-8 encoding. -/
def byteLength (s : Text) : Nat := (s.map Char.utf8Size).sum

lemma length_le_byteLength (s : Text) : s.length ≤ byteLength s := by
  unfold byteLength
  induction s with
  | nil => exact Nat.le_refl 0
  | cons c s ih =>
    have one : 1 ≤ c.utf8Size := Char.utf8Size_pos c
    simp only [List.map_cons, List.sum_cons, List.length_cons]
    omega

lemma byteLength_of_ascii {s : Text} (ascii : ∀ c ∈ s, c.utf8Size = 1) :
    byteLength s = s.length := by
  induction s with
  | nil => rfl
  | cons c s ih =>
    have rest := ih fun c member => ascii c (List.mem_cons_of_mem _ member)
    simp only [byteLength, List.map_cons, List.sum_cons, List.length_cons] at rest ⊢
    rw [ascii c List.mem_cons_self, rest, Nat.add_comm]

namespace Path

variable {cs ds stack : List Text} {c p : Text}

/-- The text starts with a slash. -/
def isAbs (p : Text) : Bool := p.head? = some '/'

/-- One element of a split path applied to the reversed list of the elements kept so far. -/
def pushElement (rooted : Bool) (stack : List Text) (item : Text) : List Text :=
  if item = [] ∨ item = ['.'] then stack
  else if item = ['.', '.'] then
    match stack with
    | [] => if rooted then [] else [['.', '.']]
    | top :: rest => if top = ['.', '.'] then ['.', '.'] :: top :: rest else rest
  else item :: stack

/-- The elements of a path that remain once empty, dot and dot-dot elements are resolved. -/
def elements (p : Text) : List Text :=
  ((p.splitOn '/').foldl (pushElement (isAbs p)) []).reverse

/-- The absolute text of a list of elements. -/
def render (cs : List Text) : Text := '/' :: ['/'].intercalate cs

/-- `path.Clean`. -/
def clean (p : Text) : Text :=
  if isAbs p then render (elements p)
  else if elements p = [] then ['.']
  else ['/'].intercalate (elements p)

/-- The directory half of `path.Split`: everything up to and including the last slash. -/
def splitDir (p : Text) : Text := (p.reverse.dropWhile (· ≠ '/')).reverse

/-- The file half of `path.Split`: everything after the last slash. -/
def splitFile (p : Text) : Text := (p.reverse.takeWhile (· ≠ '/')).reverse

/-- `path.Dir`. -/
def dir (p : Text) : Text := clean (splitDir p)

/-- `path.Base`. -/
def base (p : Text) : Text :=
  if p = [] then ['.']
  else
    let last := splitFile (p.reverse.dropWhile (· = '/')).reverse
    if last = [] then ['/'] else last

/-- `path.Join`. -/
def join (elems : List Text) : Text :=
  match elems.dropWhile (· = []) with
  | [] => []
  | kept => clean (['/'].intercalate kept)

/-- `strings.TrimSuffix(p, "/")`. -/
def trimSlash (p : Text) : Text := if p.getLast? = some '/' then p.dropLast else p

/-- A text that `clean` keeps as one element. -/
def IsName (c : Text) : Prop := c ≠ [] ∧ c ≠ ['.'] ∧ c ≠ ['.', '.'] ∧ '/' ∉ c

instance (c : Text) : Decidable (IsName c) := inferInstanceAs (Decidable (_ ∧ _))

/-- Every element of the list is a name. -/
def Names (cs : List Text) : Prop := ∀ c ∈ cs, IsName c

instance (cs : List Text) : Decidable (Names cs) := inferInstanceAs (Decidable (∀ c ∈ cs, _))

@[simp]
lemma names_nil : Names [] := fun _ member => nomatch member

lemma names_append : Names (cs ++ ds) ↔ Names cs ∧ Names ds :=
  List.forall_mem_append

lemma Names.concat {n : Text} (names : Names cs) (name : IsName n) : Names (cs ++ [n]) :=
  names_append.mpr ⟨names, fun _ member => List.mem_singleton.mp member ▸ name⟩

/-! ## Splitting and the element stack -/

lemma pushElement_name {rooted : Bool} (name : IsName c) :
    pushElement rooted stack c = c :: stack := by
  obtain ⟨nonempty, notDot, notDots, -⟩ := name
  simp only [pushElement, nonempty, notDot, notDots, or_self, ↓reduceIte]

@[simp]
lemma pushElement_empty (rooted : Bool) (stack : List Text) :
    pushElement rooted stack [] = stack := by
  simp only [pushElement, true_or, ↓reduceIte]

/-- Rooted resolution only ever keeps names. -/
lemma names_pushElement {item : Text} (names : Names stack) (noSlash : '/' ∉ item) :
    Names (pushElement true stack item) := by
  by_cases skipped : item = [] ∨ item = ['.']
  · simpa only [pushElement, skipped, ↓reduceIte] using names
  by_cases up : item = ['.', '.']
  · subst up
    cases stack with
    | nil => exact names_nil
    | cons top rest =>
      have notDots : top ≠ ['.', '.'] := (names top List.mem_cons_self).2.2.1
      have popped : pushElement true (top :: rest) ['.', '.'] = rest := by
        simp [pushElement, notDots]
      rw [popped]
      exact fun d member => names d (List.mem_cons_of_mem _ member)
  · simp only [pushElement, skipped, up, ↓reduceIte]
    intro c member
    rcases List.mem_cons.mp member with rfl | older
    · exact ⟨fun h => skipped (.inl h), fun h => skipped (.inr h), up, noSlash⟩
    · exact names c older

lemma names_foldl_pushElement {items : List Text} (names : Names stack)
    (noSlash : ∀ item ∈ items, '/' ∉ item) : Names (items.foldl (pushElement true) stack) := by
  induction items generalizing stack with
  | nil => exact names
  | cons item items ih =>
    exact ih (names_pushElement names (noSlash item List.mem_cons_self))
      fun other member => noSlash other (List.mem_cons_of_mem _ member)

lemma notMem_of_mem_splitOn {item : Text} (member : item ∈ p.splitOn '/') : '/' ∉ item := by
  induction p generalizing item with
  | nil =>
    rw [List.splitOn_nil, List.mem_singleton] at member
    simp only [member, List.not_mem_nil, not_false_eq_true]
  | cons c p ih =>
    rw [List.splitOn, List.splitOnP_cons_eq_if_modifyHead] at member
    split_ifs at member with slash
    · rcases List.mem_cons.mp member with rfl | later
      · simp only [List.not_mem_nil, not_false_eq_true]
      · exact ih later
    · have different : c ≠ '/' := by simpa using slash
      obtain ⟨head, tail, split⟩ := List.exists_cons_of_ne_nil
        (List.splitOnP_ne_nil (fun x => x == '/') p)
      rw [split, List.modifyHead_cons] at member
      rcases List.mem_cons.mp member with rfl | later
      · have headOk : '/' ∉ head := ih (by rw [List.splitOn, split]; exact List.mem_cons_self)
        simp only [List.mem_cons, headOk, or_false]
        exact fun h => different h.symm
      · exact ih (by rw [List.splitOn, split]; exact List.mem_cons_of_mem _ later)

lemma names_elements (abs : isAbs p) : Names (elements p) := by
  intro c member
  rw [elements, abs, List.mem_reverse] at member
  exact names_foldl_pushElement names_nil (fun _ => notMem_of_mem_splitOn) c member

lemma splitOn_append_slash (p q : Text) :
    (p ++ '/' :: q).splitOn '/' = p.splitOn '/' ++ q.splitOn '/' := by
  rw [List.splitOn, List.splitOnP_append_cons p q (by simp)]
  rfl

lemma splitOn_of_notMem (noSlash : '/' ∉ c) : c.splitOn '/' = [c] := by
  refine List.splitOnP_eq_singleton fun x member => ?_
  have different : x ≠ '/' := fun same => noSlash (same ▸ member)
  simpa using different

@[simp]
lemma isAbs_cons (p : Text) : isAbs ('/' :: p) = true := rfl

lemma isAbs_append (abs : isAbs p) (q : Text) : isAbs (p ++ q) = true := by
  cases p with
  | nil => exact absurd abs (by decide)
  | cons c p => simpa [isAbs] using abs

/-- Appending a slash and a name appends the name to the elements. -/
lemma elements_append_name (abs : isAbs p) (name : IsName c) :
    elements (p ++ '/' :: c) = elements p ++ [c] := by
  simp only [elements, isAbs_append abs, abs, splitOn_append_slash,
    splitOn_of_notMem name.2.2.2, List.foldl_append, List.foldl_cons, List.foldl_nil,
    pushElement_name name, List.reverse_cons]

/-- A trailing slash changes no element. -/
lemma elements_append_slash (abs : isAbs p) : elements (p ++ ['/']) = elements p := by
  simp only [elements, isAbs_append abs, abs, splitOn_append_slash, List.splitOn_nil,
    List.foldl_append, List.foldl_cons, List.foldl_nil, pushElement_empty]

@[simp]
lemma elements_slash : elements ['/'] = [] := by decide

/-! ## Rendering -/

@[simp]
lemma render_nil : render [] = ['/'] := rfl

@[simp]
lemma isAbs_render (cs : List Text) : isAbs (render cs) = true := rfl

lemma render_singleton (c : Text) : render [c] = '/' :: c := by
  simp [render, List.intercalate]

lemma render_concat (nonempty : cs ≠ []) (c : Text) :
    render (cs ++ [c]) = render cs ++ '/' :: c := by
  induction cs with
  | nil => exact absurd rfl nonempty
  | cons first cs ih =>
    cases cs with
    | nil => simp [render, List.intercalate]
    | cons second cs =>
      have tail := ih (List.cons_ne_nil second cs)
      simp only [render, List.intercalate, List.cons_append, List.intersperse_cons_cons,
        List.flatten_cons, List.cons.injEq, true_and] at tail ⊢
      rw [tail]
      simp only [List.nil_append, List.append_assoc, List.cons_append]

/-- Reading back the rendering of names gives the names. -/
@[simp]
lemma elements_render (names : Names cs) : elements (render cs) = cs := by
  induction cs using List.reverseRecOn with
  | nil => exact elements_slash
  | append_singleton cs c ih =>
    obtain ⟨front, last⟩ := names_append.mp names
    have name : IsName c := last c (List.mem_singleton_self c)
    by_cases empty : cs = []
    · subst empty
      rw [List.nil_append, render_singleton]
      have split : ('/' :: c).splitOn '/' = [[], c] := by
        rw [← splitOn_of_notMem name.2.2.2]
        exact splitOn_append_slash [] c
      simp only [elements, isAbs_cons, split, List.foldl_cons, List.foldl_nil,
        pushElement_empty, pushElement_name name, List.reverse_cons, List.reverse_nil,
        List.nil_append]
    · rw [render_concat empty, elements_append_name (isAbs_render cs) name, ih front]

lemma render_injective (left : Names cs) (right : Names ds) (same : render cs = render ds) :
    cs = ds := by
  rw [← elements_render left, same, elements_render right]

lemma clean_eq_render (abs : isAbs p) : clean p = render (elements p) := by
  rw [clean, if_pos abs]

@[simp]
lemma clean_render (names : Names cs) : clean (render cs) = render cs := by
  rw [clean_eq_render (isAbs_render cs), elements_render names]

/-- Clean absolute paths are determined by their elements. -/
lemma eq_of_elements {q : Text} (absP : isAbs p) (absQ : isAbs q) (cleanP : clean p = p)
    (cleanQ : clean q = q) (same : elements p = elements q) : p = q := by
  rw [← cleanP, ← cleanQ, clean_eq_render absP, clean_eq_render absQ, same]

lemma isAbs_clean (abs : isAbs p) : isAbs (clean p) = true := by
  rw [clean_eq_render abs, isAbs_render]

/-- No element of any path is empty or holds a slash. -/
lemma nonempty_of_mem_elements (member : c ∈ elements p) : c ≠ [] ∧ '/' ∉ c := by
  have kept : ∀ items stack : List Text, (∀ item ∈ items, '/' ∉ item) →
      (∀ d ∈ stack, d ≠ [] ∧ '/' ∉ d) →
      ∀ d ∈ items.foldl (pushElement (isAbs p)) stack, d ≠ [] ∧ '/' ∉ d := by
    intro items
    induction items with
    | nil => exact fun _ _ stacked => stacked
    | cons item items ih =>
      intro stack noSlash stacked
      refine ih _ (fun other later => noSlash other (List.mem_cons_of_mem _ later)) ?_
      have here : '/' ∉ item := noSlash item List.mem_cons_self
      unfold pushElement
      grind
  rw [elements, List.mem_reverse] at member
  exact kept _ [] (fun _ => notMem_of_mem_splitOn) (fun _ nothing => nomatch nothing) c member

lemma isAbs_clean_eq (p : Text) : isAbs (clean p) = isAbs p := by
  cases abs : isAbs p with
  | true => exact isAbs_clean abs
  | false =>
    rw [clean, abs, if_neg Bool.false_ne_true]
    split_ifs with empty
    · rfl
    · obtain ⟨first, rest, split⟩ := List.exists_cons_of_ne_nil empty
      obtain ⟨nonempty, noSlash⟩ := nonempty_of_mem_elements (p := p) (c := first)
        (by rw [split]; exact List.mem_cons_self)
      obtain ⟨head, tail, rfl⟩ := List.exists_cons_of_ne_nil nonempty
      have different : head ≠ '/' := fun same => noSlash (by simp [same])
      rw [split]
      cases rest with
      | nil => simpa [isAbs, List.intercalate] using different
      | cons second rest => simpa [isAbs, List.intercalate] using different

lemma clean_ne_nil (p : Text) : clean p ≠ [] := by
  unfold clean
  split_ifs with abs empty
  · exact List.cons_ne_nil _ _
  · exact List.cons_ne_nil _ _
  · obtain ⟨first, rest, split⟩ := List.exists_cons_of_ne_nil empty
    have nonempty : first ≠ [] := (nonempty_of_mem_elements (p := p) (c := first)
      (by rw [split]; exact List.mem_cons_self)).1
    rw [split]
    cases rest with
    | nil => simpa [List.intercalate] using nonempty
    | cons second rest => simp [List.intercalate]

lemma clean_clean (abs : isAbs p) : clean (clean p) = clean p := by
  rw [clean_eq_render abs, clean_render (names_elements abs)]

lemma render_eq_slash (names : Names cs) : render cs = ['/'] ↔ cs = [] :=
  ⟨fun same => render_injective names names_nil same, fun empty => empty ▸ rfl⟩

/-- Every rendering of a nonempty list is some text, a slash and the last element. -/
lemma render_concat_split (cs : List Text) (c : Text) :
    ∃ front, render (cs ++ [c]) = front ++ '/' :: c ∧
      front ++ ['/'] = if cs = [] then ['/'] else render cs ++ ['/'] := by
  by_cases empty : cs = []
  · exact ⟨[], by rw [empty, List.nil_append, render_singleton, List.nil_append],
      by rw [if_pos empty, List.nil_append]⟩
  · exact ⟨render cs, render_concat empty c, by rw [if_neg empty]⟩

lemma splitDir_append_slash (noSlash : '/' ∉ c) (front : Text) :
    splitDir (front ++ '/' :: c) = front ++ ['/'] := by
  have kept : ∀ x ∈ c.reverse, decide (x ≠ '/') = true := by
    intro x member
    exact decide_eq_true fun same => noSlash (same ▸ List.mem_reverse.mp member)
  rw [splitDir, List.reverse_append, List.reverse_cons, List.append_assoc,
    List.dropWhile_append_of_pos kept]
  simp

lemma splitFile_append_slash (noSlash : '/' ∉ c) (front : Text) :
    splitFile (front ++ '/' :: c) = c := by
  have kept : ∀ x ∈ c.reverse, decide (x ≠ '/') = true := by
    intro x member
    exact decide_eq_true fun same => noSlash (same ▸ List.mem_reverse.mp member)
  rw [splitFile, List.reverse_append, List.reverse_cons, List.append_assoc,
    List.takeWhile_append_of_pos kept]
  simp

/-- The directory of a rendered path drops its last element. -/
lemma dir_render_concat (names : Names (cs ++ [c])) : dir (render (cs ++ [c])) = render cs := by
  obtain ⟨front, last⟩ := names_append.mp names
  have name : IsName c := last c (List.mem_singleton_self c)
  obtain ⟨text, rendered, slashed⟩ := render_concat_split cs c
  rw [dir, rendered, splitDir_append_slash name.2.2.2, slashed]
  split_ifs with empty
  · subst empty
    rfl
  · rw [clean_eq_render (isAbs_append (isAbs_render cs) _),
      elements_append_slash (isAbs_render cs), elements_render front]

lemma dropWhile_slash_reverse_name (name : IsName c) (front : Text) :
    ((front ++ '/' :: c).reverse.dropWhile (· = '/')).reverse = front ++ '/' :: c := by
  obtain ⟨nonempty, -, -, noSlash⟩ := name
  obtain ⟨body, final, rfl⟩ := (List.eq_nil_or_concat' c).resolve_left nonempty
  have different : final ≠ '/' := fun same => noSlash (by simp [same])
  simp [different]

/-- The base of a rendered path is its last element. -/
lemma base_render_concat (name : IsName c) : base (render (cs ++ [c])) = c := by
  obtain ⟨text, rendered, -⟩ := render_concat_split cs c
  have nonempty : text ++ '/' :: c ≠ [] := by simp
  simp only [base, rendered, nonempty, ↓reduceIte, dropWhile_slash_reverse_name name,
    splitFile_append_slash name.2.2.2, name.1]

/-- Joining a rendered path and a name renders the longer list. -/
lemma join_render (names : Names cs) (name : IsName c) :
    join [render cs, c] = render (cs ++ [c]) := by
  have nonempty : render cs ≠ [] := List.cons_ne_nil _ _
  have glued : ['/'].intercalate [render cs, c] = render cs ++ '/' :: c := by
    simp [List.intercalate]
  simp only [join, List.dropWhile_cons, nonempty, decide_false, Bool.false_eq_true,
    ↓reduceIte, glued]
  rw [clean_eq_render (isAbs_append (isAbs_render cs) _),
    elements_append_name (isAbs_render cs) name, elements_render names]

/-- Joining the root item and names renders the names. -/
lemma join_root_cons (names : Names cs) : join (['/'] :: cs) = render cs := by
  have nonempty : (['/'] : Text) ≠ [] := List.cons_ne_nil _ _
  simp only [join, List.dropWhile_cons, nonempty, decide_false, Bool.false_eq_true, ↓reduceIte]
  cases cs with
  | nil => rfl
  | cons c cs =>
    have glued : ['/'].intercalate (['/'] :: c :: cs) = '/' :: render (c :: cs) := by
      simp [List.intercalate, render]
    have split : ('/' :: render (c :: cs)).splitOn '/' = [] :: (render (c :: cs)).splitOn '/' :=
      splitOn_append_slash [] (render (c :: cs))
    have same : elements ('/' :: render (c :: cs)) = elements (render (c :: cs)) := by
      simp only [elements, split, isAbs_cons, isAbs_render, List.foldl_cons, pushElement_empty]
    rw [glued, clean_eq_render (isAbs_cons _), same, elements_render names]

/-- Trimming a trailing slash keeps an absolute path other than the single slash absolute, with
the same elements. -/
lemma trimSlash_abs (abs : isAbs p) (notRoot : p ≠ ['/']) :
    isAbs (trimSlash p) = true ∧ elements (trimSlash p) = elements p := by
  unfold trimSlash
  split_ifs with slashed
  · obtain ⟨front, rfl⟩ : ∃ front, p = front ++ ['/'] :=
      ⟨p.dropLast, (List.dropLast_append_getLast? '/' slashed).symm⟩
    have frontAbs : isAbs front = true := by
      cases front with
      | nil => exact absurd rfl notRoot
      | cons c front => simpa [isAbs] using abs
    rw [List.dropLast_concat]
    exact ⟨frontAbs, (elements_append_slash frontAbs).symm⟩
  · exact ⟨abs, rfl⟩

/-! ## Text prefixes -/

lemma render_eq_flatMap (nonempty : cs ≠ []) : render cs = cs.flatMap ('/' :: ·) := by
  induction cs using List.reverseRecOn with
  | nil => exact absurd rfl nonempty
  | append_singleton cs c ih =>
    by_cases empty : cs = []
    · simp [empty, render_singleton]
    · rw [render_concat empty, ih empty]
      simp

lemma render_append (nonempty : cs ≠ []) (rest : List Text) :
    render (cs ++ rest) = render cs ++ rest.flatMap ('/' :: ·) := by
  rw [render_eq_flatMap nonempty, render_eq_flatMap (by simp [nonempty]), List.flatMap_append]

lemma eq_of_append_slash {d x y : Text} (noSlashC : '/' ∉ c) (noSlashD : '/' ∉ d)
    (same : c ++ '/' :: x = d ++ y) (slash : y = [] ∨ ∃ z, y = '/' :: z) :
    c = d ∧ '/' :: x = y := by
  induction c generalizing d with
  | nil =>
    cases d with
    | nil => exact ⟨rfl, same⟩
    | cons first d =>
      obtain ⟨rfl, -⟩ := List.cons.inj same
      exact absurd List.mem_cons_self noSlashD
  | cons a c ih =>
    cases d with
    | nil =>
      rcases slash with rfl | ⟨z, rfl⟩
      · cases same
      · obtain ⟨rfl, -⟩ := List.cons.inj same
        exact absurd List.mem_cons_self noSlashC
    | cons b d =>
      obtain ⟨rfl, rest⟩ := List.cons.inj same
      obtain ⟨rfl, tail⟩ := ih (fun member => noSlashC (List.mem_cons_of_mem _ member))
        (fun member => noSlashD (List.mem_cons_of_mem _ member)) rest
      exact ⟨rfl, tail⟩

lemma prefix_of_flatMap (left : Names cs) (right : Names ds)
    (front : cs.flatMap ('/' :: ·) ++ ['/'] <+: ds.flatMap ('/' :: ·)) :
    ∃ rest, rest ≠ [] ∧ ds = cs ++ rest := by
  induction cs generalizing ds with
  | nil =>
    refine ⟨ds, ?_, rfl⟩
    rintro rfl
    simp at front
  | cons c cs ih =>
    cases ds with
    | nil => simp at front
    | cons d ds =>
      obtain ⟨y, same⟩ := front
      simp only [List.flatMap_cons, List.cons_append, List.cons.injEq, true_and,
        List.append_assoc, List.nil_append] at same
      have nameC := left c List.mem_cons_self
      have nameD := right d List.mem_cons_self
      have starts : ∃ x, cs.flatMap ('/' :: ·) ++ '/' :: y = '/' :: x := by
        cases cs with
        | nil => exact ⟨y, rfl⟩
        | cons e es => exact ⟨_, rfl⟩
      obtain ⟨x, begins⟩ := starts
      rw [begins] at same
      have ends : ds.flatMap ('/' :: ·) = [] ∨ ∃ z, ds.flatMap ('/' :: ·) = '/' :: z := by
        cases ds with
        | nil => exact .inl rfl
        | cons e es => exact .inr ⟨_, rfl⟩
      obtain ⟨rfl, tail⟩ := eq_of_append_slash nameC.2.2.2 nameD.2.2.2 same ends
      obtain ⟨rest, proper, rfl⟩ := ih (fun n member => left n (List.mem_cons_of_mem _ member))
        (fun n member => right n (List.mem_cons_of_mem _ member))
        ⟨y, by rw [← tail, ← begins, List.append_assoc]; rfl⟩
      exact ⟨rest, proper, rfl⟩

/-- A path that continues another after a slash is below it. -/
lemma prefix_of_render (nonempty : cs ≠ []) (left : Names cs) (right : Names ds)
    (front : render cs ++ ['/'] <+: render ds) : ∃ rest, rest ≠ [] ∧ ds = cs ++ rest := by
  by_cases empty : ds = []
  · rw [empty, render_nil, render_eq_flatMap nonempty] at front
    obtain ⟨c, cs, rfl⟩ := List.exists_cons_of_ne_nil nonempty
    have short := front.length_le
    simp at short
  · rw [render_eq_flatMap nonempty, render_eq_flatMap empty] at front
    exact prefix_of_flatMap left right front

end Path

end TgFile.Go
