import LuaTypings.Proofs.Text.Cut
import LuaTypings.Proofs.Text.Trim
import LuaTypings.TypeText.Bracket

/-!
# Balanced texts

A text is balanced when none of its closers comes without an opener before it and all its brackets are closed at its
end. Whatever stands behind a balanced text is scanned as if the balanced text were not there: its brackets are counted
from the same depth (`closesFrom_append`), it is cut into the same pieces (`segments_append_openAfter`), and the closer
that ends an open bracket is found in it (`splitAtClose?_append`). Therefore texts that are written next to each other
with a separator between them are read back one by one (`topPartsBy_join`), and a pair of brackets around a balanced text
encloses just that text (`splitAtClose?_of_isBalanced`, `enclosed?_of_isBalanced`).
-/

namespace LuaTypings.TypeText

/-- Whether a text that starts inside `depth` open brackets closes all of them in the end and no closer in it comes
where no bracket is open. -/
def closesFrom : Nat → Text → Bool
  | depth, [] => depth == 0
  | depth, c :: t => !(depth == 0 && isCloser c) && closesFrom (depthAfter depth c) t

/-- Whether a text is balanced: its brackets never close below depth zero and end at depth zero. -/
def isBalanced (t : Text) : Bool := closesFrom 0 t

/-- The number of brackets that are open at the end of a text that starts inside `depth` of them. -/
def openAfter (depth : Nat) (t : Text) : Nat := t.foldl depthAfter depth

/-- Whether a text that starts inside `depth` open brackets holds no separator of a kind outside all brackets. -/
def isUnbroken (isSeparator : Char → Bool) : Nat → Text → Bool
  | _, [] => true
  | depth, c :: t => !isTopSeparator isSeparator depth c && isUnbroken isSeparator (depthAfter depth c) t

/-! ## Depth -/

/-- An opener is no closer. -/
theorem isCloser_of_isOpener {c : Char} (h : isOpener c = true) : isCloser c = false := by
  simp only [isOpener, Bool.or_eq_true, beq_iff_eq] at h
  rcases h with ((rfl | rfl) | rfl) | rfl <;> decide

/-- The brackets of all kinds. -/
def brackets : Text := "([{<)]}>"

/-- A character of a kind to which no bracket belongs is no bracket. -/
theorem not_bracket_of_kind {kind : Char → Bool} (hkind : brackets.all (!kind ·) = true) {c : Char}
    (hc : kind c = true) : isOpener c = false ∧ isCloser c = false := by
  have hne : ∀ b ∈ brackets, c ≠ b := by
    rintro b hb rfl
    have hb' := List.all_eq_true.mp hkind c hb
    rw [hc] at hb'
    contradiction
  constructor
  · rw [← Bool.not_eq_true]
    intro ho
    simp only [isOpener, Bool.or_eq_true, beq_iff_eq] at ho
    rcases ho with ((rfl | rfl) | rfl) | rfl <;> exact hne _ (by decide) rfl
  · rw [← Bool.not_eq_true]
    intro hcl
    simp only [isCloser, Bool.or_eq_true, beq_iff_eq] at hcl
    rcases hcl with ((rfl | rfl) | rfl) | rfl <;> exact hne _ (by decide) rfl

/-- No word character is a bracket. -/
theorem not_bracket_of_isWordChar {c : Char} (h : Text.isWordChar c = true) :
    isOpener c = false ∧ isCloser c = false :=
  not_bracket_of_kind (by decide) h

/-- An opener leads one bracket deeper. -/
theorem depthAfter_of_isOpener {c : Char} (h : isOpener c = true) (depth : Nat) : depthAfter depth c = depth + 1 := by
  rw [depthAfter, if_pos h]

/-- A closer leads out of one bracket. -/
theorem depthAfter_of_isCloser {c : Char} (h : isCloser c = true) (depth : Nat) : depthAfter depth c = depth - 1 := by
  have ho : isOpener c = false := by
    rw [← Bool.not_eq_true]
    intro ho
    rw [isCloser_of_isOpener ho] at h
    contradiction
  rw [depthAfter, if_neg (by simp [ho]), if_pos h]

/-- Any other character leaves the depth as it is. -/
theorem depthAfter_of_plain {c : Char} (ho : isOpener c = false) (hc : isCloser c = false) (depth : Nat) :
    depthAfter depth c = depth := by
  rw [depthAfter, if_neg (by simp [ho]), if_neg (by simp [hc])]

/-- Brackets that were open before are counted on, unless a closer comes where none is open. -/
theorem depthAfter_add {depth : Nat} {c : Char} (h : (depth == 0 && isCloser c) = false) (e : Nat) :
    depthAfter (depth + e) c = depthAfter depth c + e := by
  unfold depthAfter
  split_ifs with ho hc
  · omega
  · have hpos : depth ≠ 0 := by
      rintro rfl
      simp [hc] at h
    omega
  · rfl

/-- Brackets are counted on from the end of one text into the next. -/
theorem openAfter_append (depth : Nat) (s t : Text) : openAfter depth (s ++ t) = openAfter (openAfter depth s) t :=
  List.foldl_append

/-- A text that closes its own brackets leaves open what was open around it. -/
theorem openAfter_of_closesFrom {depth : Nat} {s : Text} (hs : closesFrom depth s = true) (e : Nat) :
    openAfter (depth + e) s = e := by
  induction s generalizing depth with
  | nil => simpa [closesFrom, openAfter] using hs
  | cons c s ih =>
    rw [closesFrom, Bool.and_eq_true, Bool.not_eq_true'] at hs
    rw [openAfter, List.foldl_cons, depthAfter_add hs.1]
    exact ih hs.2

/-! ## Balance -/

/-- What a text that closes its brackets leaves open is what was open around them. -/
theorem closesFrom_append {depth : Nat} {s : Text} (hs : closesFrom depth s = true) (e : Nat) (t : Text) :
    closesFrom (depth + e) (s ++ t) = closesFrom e t := by
  induction s generalizing depth with
  | nil =>
    have h0 : depth = 0 := by simpa [closesFrom] using hs
    rw [h0, Nat.zero_add, List.nil_append]
  | cons c s ih =>
    rw [closesFrom, Bool.and_eq_true, Bool.not_eq_true'] at hs
    -- A closer at depth zero would be one without an opener before it.
    have hstep : (depth + e == 0 && isCloser c) = false := by
      by_cases h0 : depth = 0
      · have hc : isCloser c = false := by simpa [h0] using hs.1
        simp [hc]
      · have hne : (depth + e == 0) = false := beq_false_of_ne (by omega)
        simp [hne]
    rw [List.cons_append, closesFrom, hstep, depthAfter_add hs.1, ih hs.2]
    rfl

/-- A balanced text at the end closes and opens nothing of what stands before it. -/
theorem closesFrom_append_of_isBalanced {w : Text} (hw : isBalanced w = true) (depth : Nat) (s : Text) :
    closesFrom depth (s ++ w) = closesFrom depth s := by
  induction s generalizing depth with
  | nil =>
    have h := closesFrom_append hw depth []
    rwa [Nat.zero_add, List.append_nil] at h
  | cons c s ih => rw [List.cons_append, closesFrom, closesFrom, ih]

/-- A balanced text leaves open what was open before it. -/
theorem openAfter_of_isBalanced {s : Text} (hs : isBalanced s = true) : openAfter 0 s = 0 :=
  openAfter_of_closesFrom hs 0

/-- Balanced texts one after another are balanced. -/
theorem isBalanced_append {s t : Text} (hs : isBalanced s = true) (ht : isBalanced t = true) :
    isBalanced (s ++ t) = true := by
  have h := closesFrom_append hs 0 t
  rw [Nat.add_zero] at h
  rw [isBalanced, h]
  exact ht

/-- A text without brackets is balanced. -/
theorem isBalanced_of_plain {t : Text} (h : ∀ c ∈ t, isOpener c = false ∧ isCloser c = false) :
    isBalanced t = true := by
  induction t with
  | nil => rfl
  | cons c t ih =>
    obtain ⟨ho, hc⟩ := h c List.mem_cons_self
    rw [isBalanced, closesFrom, hc, depthAfter_of_plain ho hc]
    exact ih fun d hd => h d (List.mem_cons_of_mem c hd)

/-- Blanks are balanced. -/
theorem isBalanced_of_blanks {w : Text} (hw : ∀ c ∈ w, Text.isBlank c = true) : isBalanced w = true :=
  isBalanced_of_plain fun c hc => not_bracket_of_kind (by decide) (hw c hc)

/-- A word is balanced. -/
theorem isBalanced_of_isWord {t : Text} (h : Text.isWord t = true) : isBalanced t = true :=
  isBalanced_of_plain fun c hc => not_bracket_of_isWordChar ((Text.isWord_iff.mp h).2 c hc)

/-- A balanced text between an opener and a closer is balanced. -/
theorem isBalanced_bracketed {o c : Char} {s : Text} (ho : isOpener o = true) (hc : isCloser c = true)
    (hs : isBalanced s = true) : isBalanced (o :: (s ++ [c])) = true := by
  rw [isBalanced, closesFrom, isCloser_of_isOpener ho, depthAfter_of_isOpener ho, Nat.zero_add]
  have hrest : closesFrom 1 (s ++ [c]) = closesFrom 1 [c] := by
    simpa using closesFrom_append hs 1 [c]
  rw [hrest, closesFrom, depthAfter_of_isCloser hc]
  rfl

/-- Balanced texts with a balanced separator between neighbours are balanced. -/
theorem isBalanced_join {separator : Text} (hsep : isBalanced separator = true) {parts : List Text}
    (h : ∀ s ∈ parts, isBalanced s = true) : isBalanced (Text.join separator parts) = true := by
  by_cases hne : parts = []
  · subst hne
    rfl
  · exact Text.join_of_append (fun _ _ => isBalanced_append) hsep hne h

/-! ## Separators -/

variable {p : Char → Bool}

/-- Nothing separates inside a bracket. -/
theorem isTopSeparator_of_pos {depth : Nat} (h : 0 < depth) (c : Char) :
    isTopSeparator p depth c = false := by
  have hne : (depth == 0) = false := beq_false_of_ne (by omega)
  rw [isTopSeparator, hne]
  rfl

/-- A text that closes its brackets inside a further one holds no separator outside all brackets. -/
theorem isUnbroken_of_pos {depth e : Nat} {s : Text} (hs : closesFrom depth s = true) (he : 0 < e) :
    isUnbroken p (depth + e) s = true := by
  induction s generalizing depth with
  | nil => rfl
  | cons c s ih =>
    -- The depth never falls below that of the bracket around the text.
    rw [closesFrom, Bool.and_eq_true, Bool.not_eq_true'] at hs
    rw [isUnbroken, isTopSeparator_of_pos (by omega), depthAfter_add hs.1, ih hs.2]
    rfl

/-- Behind a text, separators are looked for inside the brackets that it leaves open. -/
theorem isUnbroken_append_openAfter (depth : Nat) (s t : Text) :
    isUnbroken p depth (s ++ t) = (isUnbroken p depth s && isUnbroken p (openAfter depth s) t) := by
  induction s generalizing depth with
  | nil => rfl
  | cons c s ih =>
    rw [List.cons_append, isUnbroken, isUnbroken, ih, Bool.and_assoc]
    rfl

/-- Behind a text that closes its brackets, separators are looked for as they were before it. -/
theorem isUnbroken_append {depth : Nat} {s : Text} (hs : closesFrom depth s = true) (e : Nat) (t : Text) :
    isUnbroken p (depth + e) (s ++ t) =
      (isUnbroken p (depth + e) s && isUnbroken p e t) := by
  rw [isUnbroken_append_openAfter, openAfter_of_closesFrom hs]

/-- Texts one after another hold a separator outside all brackets only if one of them does. -/
theorem isUnbroken_append_of_isBalanced {s : Text} (hs : isBalanced s = true) (t : Text) :
    isUnbroken p 0 (s ++ t) = (isUnbroken p 0 s && isUnbroken p 0 t) := by
  have h := isUnbroken_append (p := p) hs 0 t
  rwa [Nat.zero_add] at h

/-- The start of a text that no separator breaks is unbroken. -/
theorem isUnbroken_of_isPrefix {depth : Nat} {s t : Text} (h : s <+: t) (ht : isUnbroken p depth t = true) :
    isUnbroken p depth s = true := by
  induction s generalizing depth t with
  | nil => rfl
  | cons c s ih =>
    obtain ⟨u, rfl⟩ := h
    rw [List.cons_append, isUnbroken, Bool.and_eq_true] at ht
    rw [isUnbroken, ht.1, ih (List.prefix_append s u) ht.2]
    rfl

/-- A text of characters that do not separate is unbroken. -/
theorem isUnbroken_of_forall {t : Text} (h : ∀ c ∈ t, p c = false) (depth : Nat) :
    isUnbroken p depth t = true := by
  induction t generalizing depth with
  | nil => rfl
  | cons c t ih =>
    have hc : isTopSeparator p depth c = false := by
      rw [isTopSeparator, h c List.mem_cons_self, Bool.and_false]
    rw [isUnbroken, hc, ih fun d hd => h d (List.mem_cons_of_mem c hd)]
    rfl

/-- A text without the separating character is unbroken. -/
theorem isUnbroken_of_not_mem {d : Char} {t : Text} (h : d ∉ t) (depth : Nat) : isUnbroken (· == d) depth t = true := by
  have hne : ∀ c ∈ t, (c == d) = false := by
    intro c hc
    rw [beq_eq_false_iff_ne]
    rintro rfl
    exact h hc
  exact isUnbroken_of_forall hne depth

/-- An opener, a balanced text and one more character hold no separator outside all brackets. -/
theorem isUnbroken_bracketed {o : Char} {s : Text} (ho : isOpener o = true) (hs : isBalanced s = true) (c : Char) :
    isUnbroken p 0 (o :: (s ++ [c])) = true := by
  have hinside : isUnbroken p 1 s = true := by
    simpa using isUnbroken_of_pos (p := p) hs (Nat.one_pos)
  have hrest : isUnbroken p 1 (s ++ [c]) = true := by
    have h := isUnbroken_append (p := p) hs 1 [c]
    rw [Nat.zero_add, hinside] at h
    rw [h, isUnbroken, isTopSeparator_of_pos Nat.one_pos]
    rfl
  rw [isUnbroken, depthAfter_of_isOpener ho, Nat.zero_add, hrest, isTopSeparator, ho]
  simp

/-! ## Pieces -/

/-- There is always a piece. -/
theorem segments_ne_nil (depth : Nat) (t : Text) : segments p depth t ≠ [] := by
  induction t generalizing depth with
  | nil => simp [segments]
  | cons c t ih =>
    rw [segments]
    split
    · simp
    · split <;> simp

/-- A character that does not separate goes in front of the first piece. -/
theorem segments_cons {depth : Nat} {c : Char} (h : isTopSeparator p depth c = false) (t : Text) :
    segments p depth (c :: t) = (segments p (depthAfter depth c) t).modifyHead (c :: ·) := by
  rw [segments, if_neg (by simp [h])]
  cases hp : segments p (depthAfter depth c) t with
  | nil => exact absurd hp (segments_ne_nil _ _)
  | cons piece pieces => rfl

/-- A separator ends an empty first piece. -/
theorem segments_separator {c : Char} (h : isTopSeparator p 0 c = true) (t : Text) :
    segments p 0 (c :: t) = [] :: segments p 0 t := by
  rw [segments, if_pos h]

/-- An unbroken text belongs to the first piece as a whole. -/
theorem segments_append_openAfter {depth : Nat} {s : Text} (hu : isUnbroken p depth s = true) (t : Text) :
    segments p depth (s ++ t) = (segments p (openAfter depth s) t).modifyHead (s ++ ·) := by
  induction s generalizing depth with
  | nil => exact (congrFun List.modifyHead_id _).symm
  | cons c s ih =>
    rw [isUnbroken, Bool.and_eq_true, Bool.not_eq_true'] at hu
    rw [List.cons_append, segments_cons hu.1, ih hu.2, List.modifyHead_modifyHead]
    rfl

/-- An unbroken text is one piece. -/
theorem segments_of_isUnbroken {depth : Nat} {s : Text} (hu : isUnbroken p depth s = true) :
    segments p depth s = [s] := by
  have h := segments_append_openAfter hu []
  rw [List.append_nil] at h
  rw [h, segments, List.modifyHead_cons, List.append_nil]

/-- An unbroken text that leaves no bracket open is the first piece in front of a separator. -/
theorem segments_append_separator {s : Text} {c : Char} (hs : openAfter 0 s = 0) (hu : isUnbroken p 0 s = true)
    (hc : isTopSeparator p 0 c = true) (t : Text) : segments p 0 (s ++ c :: t) = s :: segments p 0 t := by
  rw [segments_append_openAfter hu, hs, segments_separator hc, List.modifyHead_cons, List.append_nil]

/-- Unbroken texts with a separator between neighbours are the pieces, when all but the last leave no bracket open. -/
theorem segments_join {c : Char} (hc : isTopSeparator p 0 c = true) {s : Text} {parts : List Text}
    (hu : ∀ r ∈ s :: parts, isUnbroken p 0 r = true) (hclosed : ∀ r ∈ (s :: parts).dropLast, openAfter 0 r = 0) :
    segments p 0 (Text.join [c] (s :: parts)) = s :: parts := by
  induction parts generalizing s with
  | nil => rw [Text.join_singleton, segments_of_isUnbroken (hu s List.mem_cons_self)]
  | cons r parts ih =>
    rw [List.dropLast_cons_of_ne_nil (List.cons_ne_nil r parts), List.forall_mem_cons] at hclosed
    have hrest := ih (List.forall_mem_cons.mp hu).2 hclosed.2
    rw [Text.join_cons_cons, List.append_assoc, List.singleton_append,
      segments_append_separator hclosed.1 (hu s List.mem_cons_self) hc, hrest]

/-- Balanced unbroken texts with a separator between neighbours are the pieces. -/
theorem segments_join_of_isBalanced {c : Char} (hc : isTopSeparator p 0 c = true) {s : Text} {parts : List Text}
    (h : ∀ r ∈ s :: parts, isBalanced r = true ∧ isUnbroken p 0 r = true) :
    segments p 0 (Text.join [c] (s :: parts)) = s :: parts :=
  segments_join hc (fun r hr => (h r hr).2) fun r hr => openAfter_of_isBalanced (h r (List.dropLast_subset _ hr)).1

/-- Blanks in front of a balanced unbroken text change neither. -/
theorem isUnbroken_blanks_append {w : Text} (hw : ∀ c ∈ w, Text.isBlank c = true)
    (hsep : ∀ c, Text.isBlank c = true → p c = false) {t : Text} (h : isBalanced t = true ∧ isUnbroken p 0 t = true) :
    isBalanced (w ++ t) = true ∧ isUnbroken p 0 (w ++ t) = true := by
  have hblanks := isBalanced_of_blanks hw
  refine ⟨isBalanced_append hblanks h.1, ?_⟩
  rw [isUnbroken_append_of_isBalanced hblanks, isUnbroken_of_forall (fun c hc => hsep c (hw c hc)), h.2]
  rfl

/-- Blanks behind a balanced unbroken text change neither. -/
theorem isUnbroken_append_blanks {w : Text} (hw : ∀ c ∈ w, Text.isBlank c = true)
    (hsep : ∀ c, Text.isBlank c = true → p c = false) {t : Text} (h : isBalanced t = true ∧ isUnbroken p 0 t = true) :
    isBalanced (t ++ w) = true ∧ isUnbroken p 0 (t ++ w) = true := by
  refine ⟨isBalanced_append h.1 (isBalanced_of_blanks hw), ?_⟩
  rw [isUnbroken_append_of_isBalanced h.1, isUnbroken_of_forall (fun c hc => hsep c (hw c hc)), h.2]
  rfl

/-- Trimmed texts with a separator between neighbours, and blanks behind it, are read back one by one. -/
theorem topPartsBy_join {c : Char} {w : Text} (hc : isTopSeparator p 0 c = true)
    (hw : ∀ b ∈ w, Text.isBlank b = true) (hsep : ∀ b, Text.isBlank b = true → p b = false)
    {parts : List Text} (h : ∀ r ∈ parts, isBalanced r = true ∧ isUnbroken p 0 r = true)
    (htrim : ∀ r ∈ parts, r ≠ [] ∧ Text.strip r = r) :
    topPartsBy p (Text.join (c :: w) parts) = parts := by
  cases parts with
  | nil => rfl
  | cons s parts =>
    -- The pieces are the parts with blanks in front of all but the first.
    have hpieces : ∀ r ∈ s :: parts.map (w ++ ·), isBalanced r = true ∧ isUnbroken p 0 r = true := by
      refine List.forall_mem_cons.mpr ⟨h s List.mem_cons_self, List.forall_mem_map.mpr fun r hr => ?_⟩
      exact isUnbroken_blanks_append hw hsep (h r (List.mem_cons_of_mem s hr))
    have hstrip : ((s :: parts.map (w ++ ·)).map Text.strip) = s :: parts := by
      rw [List.map_cons, (htrim s List.mem_cons_self).2, List.map_map]
      congr 1
      conv_rhs => rw [← List.map_id parts]
      refine List.map_congr_left fun r hr => ?_
      rw [Function.comp_apply, Text.strip_blanks_append hw, (htrim r (List.mem_cons_of_mem s hr)).2]
      rfl
    rw [topPartsBy, Text.join_cons_separator, segments_join_of_isBalanced hc hpieces, hstrip]
    refine List.filter_eq_self.mpr fun r hr => ?_
    simp [(htrim r hr).1]

/-- A trimmed text that no separator breaks is its own only part. -/
theorem topPartsBy_of_isUnbroken {s : Text} (hu : isUnbroken p 0 s = true) (hne : s ≠ [])
    (htrim : Text.strip s = s) : topPartsBy p s = [s] := by
  rw [topPartsBy, segments_of_isUnbroken hu, List.map_singleton, htrim]
  simp [hne]

/-! ## The closer of a bracket -/

/-- A text that closes its own brackets is passed over on the way to the closer of a bracket around it. -/
theorem splitAtClose?_append {depth : Nat} {s : Text} (hs : closesFrom depth s = true) (e : Nat) (t : Text) :
    splitAtClose? (depth + (e + 1)) (s ++ t) =
      (splitAtClose? (e + 1) t).map fun (inside, rest) => (s ++ inside, rest) := by
  induction s generalizing depth with
  | nil =>
    have h0 : depth = 0 := by simpa [closesFrom] using hs
    rw [h0, Nat.zero_add]
    simp
  | cons c s ih =>
    rw [closesFrom, Bool.and_eq_true, Bool.not_eq_true'] at hs
    -- The text does not end the bracket around it: its own closers have openers.
    have hpass : (isCloser c && decide (depth + (e + 1) ≤ 1)) = false := by
      rw [Bool.and_comm, Bool.and_eq_false_iff] at hs ⊢
      rcases hs.1 with hc | h0
      · exact .inr hc
      · exact .inl (decide_eq_false (by simp at h0; omega))
    rw [List.cons_append, splitAtClose?, if_neg (by simp [hpass]), depthAfter_add hs.1, ih hs.2, Option.map_map]
    rfl

/-- The closer behind a balanced text ends the bracket before it. -/
theorem splitAtClose?_of_isBalanced {s : Text} {c : Char} (hs : isBalanced s = true) (hc : isCloser c = true)
    (t : Text) : splitAtClose? 1 (s ++ c :: t) = some (s, t) := by
  have h := splitAtClose?_append hs 0 (c :: t)
  rw [Nat.zero_add, Nat.zero_add] at h
  rw [h, splitAtClose?, if_pos (by simp [hc])]
  simp

/-- What comes before the closer that ends some open brackets closes all but one of them by itself. -/
theorem exists_of_splitAtClose? {depth : Nat} {t inside rest : Text}
    (h : splitAtClose? (depth + 1) t = some (inside, rest)) :
    ∃ c, isCloser c = true ∧ closesFrom depth inside = true ∧ t = inside ++ c :: rest := by
  induction t generalizing depth inside with
  | nil => cases h
  | cons c t ih =>
    rw [splitAtClose?] at h
    split at h
    · rename_i hc
      obtain ⟨hc, hlast⟩ := Bool.and_eq_true_iff.mp hc
      have hzero : depth = 0 := by simpa using hlast
      obtain ⟨rfl, rfl⟩ : [] = inside ∧ t = rest := by simpa using h
      exact ⟨c, hc, by simp [closesFrom, hzero], rfl⟩
    · rename_i hc
      have hstray : (depth == 0 && isCloser c) = false := by
        rw [← Bool.not_eq_true]
        intro hboth
        rw [Bool.and_eq_true, beq_iff_eq] at hboth
        exact hc (by simp [hboth.1, hboth.2])
      obtain ⟨⟨inside', rest'⟩, hsplit, heq⟩ := Option.map_eq_some_iff.mp h
      obtain ⟨rfl, rfl⟩ : c :: inside' = inside ∧ rest' = rest := by simpa using heq
      rw [depthAfter_add hstray] at hsplit
      obtain ⟨d, hd, hclosed, rfl⟩ := ih hsplit
      refine ⟨d, hd, ?_, rfl⟩
      rw [closesFrom, hstray, hclosed]
      rfl

/-- Text without closers behind a text is left behind the closer that is found. -/
theorem splitAtClose?_append_plain {u : Text} (hu : ∀ c ∈ u, isCloser c = false) (depth : Nat) (t : Text) :
    splitAtClose? depth (t ++ u) = (splitAtClose? depth t).map fun (inside, rest) => (inside, rest ++ u) := by
  induction t generalizing depth with
  | nil =>
    rw [List.nil_append, splitAtClose?, Option.map_none]
    induction u generalizing depth with
    | nil => rfl
    | cons c u ih =>
      obtain ⟨hc, hrest⟩ := List.forall_mem_cons.mp hu
      rw [splitAtClose?, if_neg (by simp [hc]), ih hrest, Option.map_none]
  | cons c t ih =>
    rw [List.cons_append, splitAtClose?, splitAtClose?]
    split
    · rfl
    · rw [ih, Option.map_map, Option.map_map]
      rfl

/-- A pair of parentheses around a balanced text encloses that text. -/
theorem enclosed?_of_isBalanced {s : Text} (hs : isBalanced s = true) : enclosed? ('(' :: (s ++ [')'])) = some s := by
  rw [enclosed?, splitAtClose?_of_isBalanced hs (by decide)]
  simp

/-- A text that ends in no parenthesis encloses nothing. -/
theorem enclosed?_of_getLast? {t : Text} (h : t.getLast? ≠ some ')') : enclosed? t = none := by
  unfold enclosed?
  split
  · rename_i r
    split
    · rename_i hclose
      rw [if_neg]
      intro hlast
      cases r with
      | nil => simp at hlast
      | cons d r => exact h (by rw [List.getLast?_cons_cons]; exact hlast)
    · rfl
  · rfl

/-- The first group of a text is what its first parenthesis encloses. -/
theorem firstGroup?_of_isBalanced {front s : Text} (hfront : '(' ∉ front) (hs : isBalanced s = true) (t : Text) :
    firstGroup? (front ++ '(' :: (s ++ ')' :: t)) = some (s, t) := by
  have hall : ∀ x ∈ front, decide (x ≠ '(') = true := fun x hx => decide_eq_true fun h => hfront (h ▸ hx)
  rw [firstGroup?, List.dropWhile_append_of_pos hall, List.dropWhile_cons_of_neg (by simp)]
  exact splitAtClose?_of_isBalanced hs (by decide) t

/-- What the first parentheses enclose, their closer and what follows it end the text. -/
theorem exists_isSuffix_of_firstGroup? {t inside rest : Text} (h : firstGroup? t = some (inside, rest)) :
    ∃ c, isCloser c = true ∧ inside ++ c :: rest <:+ t := by
  rw [firstGroup?] at h
  split at h
  · cases h
  · rename_i o behind hdrop
    obtain ⟨c, hc, -, rfl⟩ := exists_of_splitAtClose? h
    exact ⟨c, hc, (List.suffix_cons o _).trans (hdrop ▸ List.dropWhile_suffix _)⟩

/-- Text without parentheses and other closers behind a text is left behind the first group. -/
theorem firstGroup?_append_plain {u : Text} (hopener : '(' ∉ u) (hu : ∀ c ∈ u, isCloser c = false) (t : Text) :
    firstGroup? (t ++ u) = (firstGroup? t).map fun (inside, rest) => (inside, rest ++ u) := by
  by_cases hmem : '(' ∈ t
  · obtain ⟨front, t, rfl, hfront⟩ := List.eq_append_cons_of_mem hmem
    have hall : ∀ x ∈ front, decide (x ≠ '(') = true := fun x hx => decide_eq_true fun h => hfront (h ▸ hx)
    rw [List.append_assoc, List.cons_append, firstGroup?, firstGroup?, List.dropWhile_append_of_pos hall,
      List.dropWhile_append_of_pos hall, List.dropWhile_cons_of_neg (by simp), List.dropWhile_cons_of_neg (by simp)]
    exact splitAtClose?_append_plain hu 1 t
  · have hnone : ∀ s : Text, '(' ∉ s → firstGroup? s = none := by
      intro s hs
      have hall : ∀ x ∈ s, decide (x ≠ '(') = true := fun x hx => decide_eq_true fun h => hs (h ▸ hx)
      rw [firstGroup?, List.dropWhile_eq_nil_iff.mpr hall]
    rw [hnone t hmem, hnone (t ++ u) (by simp [hmem, hopener]), Option.map_none]

end LuaTypings.TypeText
