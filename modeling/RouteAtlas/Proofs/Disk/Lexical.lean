import RouteAtlas.Import
import RouteAtlas.Proofs.Disk.Plain

/-!
# Paths by text alone

Path texts are joined, cut before their last name and brought to a normal form without a look at any
file. For texts that begin at the top this is following names from place to place: the normal form
is the text of the place that the names lead to (`normalize_of_head?`), and cutting off the last
name leads to the place around it (`dirText_textBelow`).
-/

namespace RouteAtlas

namespace Path

/-- A path text behind that of a folder; one that begins with a slash stands for itself. -/
def joinText (folder path : Text) : Text :=
  if path.head? = some slash ∨ folder = [] then path
  else if folder.getLast? = some slash then folder ++ path
  else folder ++ slash :: path

/-- The text before the last name. Slashes at its end are left out, unless nothing else is there. -/
def dirText (t : Text) : Text :=
  let front := (t.reverse.dropWhile (· ≠ slash)).reverse
  if front.all (· = slash) then front else (front.reverse.dropWhile (· = slash)).reverse

/-- One more name after others, outermost first. Two dots take back the name before them; they stay
if there is none and the path does not begin at the top, or if two dots come before them. -/
def pushName (rooted : Bool) (names : List Text) (name : Text) : List Text :=
  if name = [] ∨ name = Text.ofString "." then names
  else if name ≠ Text.ofString ".." ∨ (rooted = false ∧ names = []) ∨
      names.getLast? = some (Text.ofString "..") then names ++ [name]
  else names.dropLast

/-- The normal form of a path text. -/
def normalize (t : Text) : Text :=
  let names := (Text.splitAt slash t).foldl (pushName (!(rootOf t).isEmpty)) []
  let text := rootOf t ++ Text.join [slash] names
  if text = [] then "." else text

/-- The normal form of a path text that is looked up in a folder. -/
def absoluteText (current : Place) (t : Text) : Text :=
  normalize (if t.head? = some slash then t else joinText current.toText t)

/-! ## Roots -/

/-- The slashes that a path text at the top begins with. -/
def IsRoot (root : Text) : Prop := root = [slash] ∨ root = [slash, slash]

theorem IsRoot.eq_slash {root : Text} (h : IsRoot root) {c : CodePoint} (mem : c ∈ root) :
    c = slash := by
  rcases h with rfl | rfl <;> simpa using mem

theorem IsRoot.ne_nil {root : Text} (h : IsRoot root) : root ≠ [] := by
  rcases h with rfl | rfl <;> simp

theorem isRoot_rootOf {t : Text} (h : t.head? = some slash) : IsRoot (rootOf t) := by
  have some_slash : rootOf t ≠ [] := by
    cases t with
    | nil => cases h
    | cons c t =>
        obtain rfl : c = slash := Option.some.inj h
        unfold rootOf
        split
        · next none => simp at none
        · simp
        · simp
  exact (ofText_isProper t).root.resolve_left some_slash

theorem rootOf_append {root : Text} (h : IsRoot root) {t : Text} (other : t.head? ≠ some slash) :
    rootOf (root ++ t) = root := by
  have none : t.takeWhile (· = slash) = [] := by
    cases t with
    | nil => rfl
    | cons c t =>
        have ne : c ≠ slash := fun same => other (congrArg some same)
        rw [List.takeWhile_cons_of_neg (by simpa using ne)]
  have first : (root ++ t).takeWhile (· = slash) = root := by
    rw [List.takeWhile_append_of_pos fun c mem => decide_eq_true (h.eq_slash mem), none,
      List.append_nil]
  rw [rootOf, first]
  rcases h with rfl | rfl <;> rfl

/-- Cutting off a last name leaves what is before its slash. -/
theorem dropWhile_reverse_append {n : Text} (free : slash ∉ n) (front : Text) :
    (front ++ slash :: n).reverse.dropWhile (· ≠ slash) = slash :: front.reverse := by
  have name : ∀ c ∈ n.reverse, decide (c ≠ slash) = true := by
    intro c mem
    exact decide_eq_true fun same => free (same ▸ List.mem_reverse.mp mem)
  rw [List.reverse_append, List.reverse_cons, List.append_assoc, List.dropWhile_append_of_pos name,
    List.singleton_append, List.dropWhile_cons_of_neg (by simp)]

theorem dirText_append {front n : Text} (ne : front ≠ []) (last : front.getLast? ≠ some slash)
    (free : slash ∉ n) : dirText (front ++ slash :: n) = front := by
  cases ends : front.reverse with
  | nil => exact absurd (List.reverse_eq_nil_iff.mp ends) ne
  | cons c rest =>
      have other : c ≠ slash := by
        rw [← List.head?_reverse, ends] at last
        exact fun same => last (congrArg some same)
      have whole : front = rest.reverse ++ [c] := by
        rw [← List.reverse_reverse front, ends, List.reverse_cons]
      simp only [dirText, dropWhile_reverse_append free]
      simp [other, whole]

theorem dirText_root_append {root n : Text} (h : IsRoot root) (free : slash ∉ n) :
    dirText (root ++ n) = root := by
  have cut (front : Text) : (front ++ slash :: n).reverse.dropWhile (· ≠ slash) =
      slash :: front.reverse := dropWhile_reverse_append free front
  rcases h with rfl | rfl
  · have text : [slash] ++ n = [] ++ slash :: n := rfl
    simp only [text, dirText, cut]
    decide
  · have text : [slash, slash] ++ n = [slash] ++ slash :: n := rfl
    simp only [text, dirText, cut]
    decide

theorem rootOf_of_head?_ne {t : Text} (other : t.head? ≠ some slash) : rootOf t = [] := by
  cases t with
  | nil => rfl
  | cons c t =>
      have ne : c ≠ slash := fun same => other (congrArg some same)
      simp [rootOf, ne]

end Path

/-! ## Names one after the other -/

namespace Text

variable {sep : CodePoint}

theorem join_cons_of_ne_nil (first : Text) {rest : List Text} (ne : rest ≠ []) :
    join [sep] (first :: rest) = first ++ sep :: join [sep] rest := by
  rw [join, List.append_assoc]
  · rfl
  · exact ne

theorem join_concat {names : List Text} (ne : names ≠ []) (last : Text) :
    join [sep] (names ++ [last]) = join [sep] names ++ sep :: last := by
  cases names with
  | nil => exact absurd rfl ne
  | cons first rest =>
      rw [List.cons_append, join_cons, join_cons, List.flatMap_append, List.append_assoc]
      simp

/-- Cutting a joined text gives the names back, and whatever pieces the last one has. -/
theorem splitAt_join_concat {names : List Text} (free : ∀ n ∈ names, sep ∉ n) (last : Text) :
    splitAt sep (join [sep] (names ++ [last])) = names ++ splitAt sep last := by
  induction names with
  | nil => rfl
  | cons n names ih =>
      rw [List.forall_mem_cons] at free
      rw [List.cons_append, join_cons_of_ne_nil n (by simp), splitAt_append,
        splitAt_of_not_mem free.1, ih free.2]
      rfl

end Text

namespace Place

variable {p : Place}

theorem walk_append (p : Place) (names more : List Text) :
    p.walk (names ++ more) = (p.walk names).walk more :=
  List.foldl_append

/-- Names that stay in a folder can be left out. -/
theorem walk_filter (p : Place) (names : List Text) :
    p.walk (names.filter fun n => n ≠ [] ∧ n ≠ Text.ofString ".") = p.walk names := by
  rw [walk, List.foldl_filter]
  congr 1
  funext here name
  by_cases stays : name = [] ∨ name = Text.ofString "."
  · rw [step, if_pos stays, if_neg (by simpa [← not_or] using stays)]
  · rw [if_pos (by simpa [← not_or] using stays)]

/-- The list of names changes as the place does, for as long as no two dots are in it. -/
theorem IsPlain.pushName (h : p.IsPlain) (name : Text) :
    Path.pushName true p.reverse name = (p.step name).reverse := by
  have above : p.reverse.getLast? ≠ some (Text.ofString "..") := by
    rw [List.getLast?_reverse]
    intro last
    exact (h _ (List.mem_of_head? last)).1.2 rfl
  unfold Path.pushName Place.step
  split
  · rfl
  · by_cases dots : name = Text.ofString ".."
    · have taken : ¬(name ≠ Text.ofString ".." ∨ (true = false ∧ p.reverse = []) ∨
          p.reverse.getLast? = some (Text.ofString "..")) := by
        rintro (other | ⟨no, -⟩ | last)
        · exact other dots
        · cases no
        · exact above last
      rw [if_pos dots, if_neg taken, List.dropLast_reverse]
    · rw [if_neg dots, if_pos (.inl dots), List.reverse_cons]

theorem IsPlain.foldl_pushName (h : p.IsPlain) {names : List Text} (free : ∀ n ∈ names, slash ∉ n) :
    names.foldl (Path.pushName true) p.reverse = (p.walk names).reverse := by
  induction names generalizing p with
  | nil => rfl
  | cons n names ih =>
      rw [List.forall_mem_cons] at free
      rw [List.foldl_cons, h.pushName n, ih (h.step free.1) free.2]
      rfl

theorem isPlain_nil : IsPlain [] := fun _ mem => nomatch mem

end Place

namespace Path

/-- A text that begins at the top has the normal form of the place that its names lead to. -/
theorem normalize_of_head? {t : Text} (h : t.head? = some slash) :
    normalize t = textBelow (rootOf t) (Place.walk [] (Text.splitAt slash t)) := by
  have isRoot := isRoot_rootOf h
  have rooted : (!(rootOf t).isEmpty) = true := by simp [isRoot.ne_nil]
  have free : ∀ n ∈ Text.splitAt slash t, slash ∉ n := fun _ mem => Text.not_mem_of_mem_splitAt mem
  have names := Place.isPlain_nil.foldl_pushName free
  rw [List.reverse_nil] at names
  rw [normalize, rooted, names, if_neg (List.append_ne_nil_of_left_ne_nil isRoot.ne_nil _)]
  rfl

theorem textBelow_cons (root n : Text) {p : Place} (ne : p ≠ []) :
    textBelow root (n :: p) = textBelow root p ++ slash :: n := by
  rw [textBelow, List.reverse_cons, Text.join_concat (mt List.reverse_eq_nil_iff.mp ne),
    ← List.append_assoc]
  rfl

/-- The innermost name comes last in the text of a place, whatever it is. -/
theorem exists_textBelow_cons (root : Text) (p : Place) :
    ∃ front, ∀ n, textBelow root (n :: p) = front ++ n := by
  by_cases top : p = []
  · refine ⟨root, fun n => ?_⟩
    rw [top]
    rfl
  · refine ⟨textBelow root p ++ [slash], fun n => ?_⟩
    rw [textBelow_cons root n top, List.append_assoc]
    rfl

section Rooted

variable {root : Text} (isRoot : IsRoot root) {p : Place} (plain : p.IsPlain)

include isRoot in
theorem walk_splitAt_append (t : Text) :
    Place.walk [] (Text.splitAt slash (root ++ t)) = Place.walk [] (Text.splitAt slash t) := by
  have skip (t : Text) :
      Place.walk [] (Text.splitAt slash (slash :: t)) = Place.walk [] (Text.splitAt slash t) := by
    simp [Text.splitAt, Place.walk, Place.step]
  rcases isRoot with rfl | rfl
  · exact skip t
  · exact (skip _).trans (skip t)

include plain in
/-- The first name of a plain place does not begin with a slash. -/
theorem head?_join_ne {path : Text} (other : path.head? ≠ some slash) :
    (Text.join [slash] (p.reverse ++ [path])).head? ≠ some slash := by
  cases names : p.reverse with
  | nil => exact other
  | cons n rest =>
      obtain ⟨isName, free⟩ := plain n (List.mem_reverse.mp (names ▸ List.mem_cons_self))
      cases n with
      | nil => exact absurd (.inl rfl) isName.1
      | cons c n =>
          rw [List.cons_append, Text.join_cons, List.cons_append, List.head?_cons]
          intro same
          exact free (Option.some.inj same ▸ List.mem_cons_self)

include plain in
/-- The text of a place ends in its innermost name. -/
theorem getLast?_textBelow (root : Text) (ne : p ≠ []) :
    (textBelow root p).getLast? ≠ some slash := by
  cases p with
  | nil => exact absurd rfl ne
  | cons n p =>
      obtain ⟨isName, free⟩ := plain n List.mem_cons_self
      have some_name : n ≠ [] := fun empty => isName.1 (.inl empty)
      obtain ⟨front, ends⟩ := exists_textBelow_cons root p
      rw [ends, List.getLast?_append, List.getLast?_eq_some_getLast some_name, Option.some_or]
      intro last
      exact free (Option.some.inj last ▸ List.getLast_mem some_name)

include isRoot plain

/-- Behind the folder at a place, a path text comes as one more name. -/
theorem joinText_textBelow {path : Text} (other : path.head? ≠ some slash) :
    joinText (textBelow root p) path = root ++ Text.join [slash] (p.reverse ++ [path]) := by
  have some_text : textBelow root p ≠ [] := List.append_ne_nil_of_left_ne_nil isRoot.ne_nil _
  rw [joinText, if_neg (not_or.mpr ⟨other, some_text⟩)]
  by_cases top : p = []
  · subst top
    have last : (textBelow root []).getLast? = some slash := by
      rcases isRoot with rfl | rfl <;> rfl
    rw [if_pos last]
    simp [textBelow, Text.join]
  · rw [if_neg (getLast?_textBelow plain root top), Text.join_concat (by simpa using top),
      textBelow, List.append_assoc]

/-- The normal form of a path text behind a folder is the text of the place it leads to from
there. -/
theorem normalize_joinText {path : Text} (other : path.head? ≠ some slash) :
    normalize (joinText (textBelow root p) path) =
      textBelow root (p.walk (Text.splitAt slash path)) := by
  have first : (root ++ Text.join [slash] (p.reverse ++ [path])).head? = some slash := by
    rcases isRoot with rfl | rfl <;> rfl
  have free : ∀ n ∈ p.reverse, slash ∉ n := fun n mem => (plain n (List.mem_reverse.mp mem)).2
  have names : ∀ n ∈ p.reverse, Name.IsPlain n := fun n mem => (plain n (List.mem_reverse.mp mem)).1
  rw [joinText_textBelow isRoot plain other, normalize_of_head? first,
    rootOf_append isRoot (head?_join_ne plain other), walk_splitAt_append isRoot,
    Text.splitAt_join_concat free, Place.walk_append, Place.walk_of_isPlain names,
    List.reverse_reverse, List.append_nil]

/-- Without its last name, the text of a place is that of the place around it. -/
theorem dirText_textBelow : dirText (textBelow root p) = textBelow root p.tail := by
  cases p with
  | nil => rcases isRoot with rfl | rfl <;> decide
  | cons n p =>
      have free := (plain n List.mem_cons_self).2
      by_cases top : p = []
      · have alone : textBelow root [n] = root ++ n := rfl
        rw [top, alone, dirText_root_append isRoot free]
        exact (List.append_nil root).symm
      · have last := getLast?_textBelow (List.forall_mem_cons.mp plain).2 root top
        rw [textBelow_cons root n top]
        exact dirText_append (List.append_ne_nil_of_left_ne_nil isRoot.ne_nil _) last free

end Rooted

end Path

end RouteAtlas
