import Mathlib.Order.Bounds.Defs
import LuaTypings.Proofs.TypeText.TopParts

/-!
# Matching closers

The closer of an opener is looked for from the opener on, while a text is split from its start on, where stray closers
do not count. The two agree on what is nested. The closer that is found is the first character behind the opener up to
which as many brackets close as open (`closerIndex?_eq_some_iff`), and what stands between the two is balanced
(`exists_of_closerIndex?`). So a bracket is open at every character between them, whatever stands in front of the
opener, and no separator there splits the text.
-/

namespace LuaTypings.TypeText

/-! ## Counted brackets -/

/-- Whether a text that starts inside `depth` open brackets has closed as many brackets by the end of its character at
an index as were open before or opened up to there. -/
def ClosesAll (depth : Nat) (t : Text) (n : Nat) : Prop :=
  n < t.length ∧ depth + (t.take (n + 1)).countP isOpener = (t.take (n + 1)).countP isCloser

/-- The closer at an index is the one of the opener at `start`: it is the first index behind `start` such that the
characters from `start` on and up to it open and close equally many brackets. -/
structure IsCloserOf (t : Text) (start : Int) (i : Nat) : Prop where
  /-- An opener stands at `start`. -/
  opener : 0 ≤ start ∧ ∃ c, t[start.toNat]? = some c ∧ isOpener c = true
  /-- The counts are equal at the index and at none before it. -/
  least : IsLeast {j : Nat | start < j ∧ j < t.length ∧
    (t.extract start.toNat (j + 1)).countP isOpener = (t.extract start.toNat (j + 1)).countP isCloser} i

/-- The least number with a property is found behind the numbers that do not have it. -/
theorem isLeast_iff_of_shift {P Q : Nat → Prop} {d : Nat} (h : ∀ j, P j ↔ ∃ m, j = m + d ∧ Q m) {n : Nat} :
    IsLeast {j | P j} n ↔ ∃ k, n = k + d ∧ IsLeast {m | Q m} k := by
  constructor
  · rintro ⟨hn, hleast⟩
    obtain ⟨k, rfl, hk⟩ := (h n).mp hn
    refine ⟨k, rfl, hk, fun m hm => ?_⟩
    have hle : k + d ≤ m + d := hleast ((h _).mpr ⟨m, rfl, hm⟩)
    omega
  · rintro ⟨k, rfl, hk, hleast⟩
    refine ⟨(h _).mpr ⟨k, rfl, hk⟩, fun j hj => ?_⟩
    obtain ⟨m, rfl, hm⟩ := (h j).mp hj
    have hle : k ≤ m := hleast hm
    omega

section Count

variable {depth : Nat} {c : Char}

/-- A character that does not end the last open bracket does not close all of them. -/
theorem not_closesAll_zero (hdepth : 0 < depth) (h : ¬ (isCloser c && decide (depth ≤ 1)) = true) (t : Text) :
    ¬ ClosesAll depth (c :: t) 0 := by
  rintro ⟨-, hcount⟩
  rw [Nat.zero_add, List.take_succ_cons, List.take_zero, List.countP_singleton, List.countP_singleton] at hcount
  by_cases hc : isCloser c = true
  · have hdeep : ¬ depth ≤ 1 := by simpa [hc] using h
    rw [if_pos hc] at hcount
    omega
  · rw [if_neg hc] at hcount
    omega

/-- Behind a character that does not end the last open bracket the count goes on at the depth that it leaves. -/
theorem closesAll_succ (hdepth : 0 < depth) (t : Text) (n : Nat) :
    ClosesAll depth (c :: t) (n + 1) ↔ ClosesAll (depthAfter depth c) t n := by
  have hbalance : depthAfter depth c + (if isCloser c then 1 else 0) = depth + if isOpener c then 1 else 0 := by
    unfold depthAfter
    by_cases ho : isOpener c = true
    · rw [isCloser_of_isOpener ho]
      simp [ho]
    · by_cases hc : isCloser c = true
      · simp only [ho, hc, if_true, if_false, Bool.false_eq_true]
        omega
      · simp [ho, hc]
  unfold ClosesAll
  rw [List.length_cons, List.take_succ_cons, List.countP_cons, List.countP_cons]
  omega

/-- The closer that ends some open brackets is the first character by which all of them are closed. -/
theorem map_length_splitAtClose?_eq_some_iff (hdepth : 0 < depth) (t : Text) (n : Nat) :
    (splitAtClose? depth t).map (fun found => found.1.length) = some n ↔ IsLeast {m | ClosesAll depth t m} n := by
  induction t generalizing depth n with
  | nil =>
    refine ⟨fun h => ?_, fun h => absurd h.1.1 (Nat.not_lt_zero n)⟩
    rw [splitAtClose?, Option.map_none] at h
    cases h
  | cons c t ih =>
    rw [splitAtClose?]
    split
    · rename_i h
      obtain ⟨hc, hlast⟩ := Bool.and_eq_true_iff.mp h
      have hopener : isOpener c = false := by
        rw [← Bool.not_eq_true]
        intro ho
        rw [isCloser_of_isOpener ho] at hc
        contradiction
      have hzero : ClosesAll depth (c :: t) 0 := by
        have hone : depth = 1 := le_antisymm (of_decide_eq_true hlast) hdepth
        exact ⟨Nat.succ_pos _, by simp [hone, hc, hopener]⟩
      refine ⟨fun h => ?_, fun h => congrArg some (Nat.le_zero.mp (h.2 hzero)).symm⟩
      obtain rfl : 0 = n := Option.some.inj h
      exact ⟨hzero, fun m _ => Nat.zero_le m⟩
    · rename_i h
      -- The depth stays positive, because the character does not end the last open bracket.
      have hnext : 0 < depthAfter depth c := by
        unfold depthAfter
        split_ifs with ho hc
        · omega
        · have hdeep : ¬ depth ≤ 1 := by simpa [hc] using h
          omega
        · exact hdepth
      have hshift : ∀ j, ClosesAll depth (c :: t) j ↔ ∃ m, j = m + 1 ∧ ClosesAll (depthAfter depth c) t m := by
        rintro (_ | j)
        · refine ⟨fun hj => absurd hj (not_closesAll_zero hdepth h t), ?_⟩
          rintro ⟨m, hm, -⟩
          exact absurd hm (Nat.succ_ne_zero m).symm
        · rw [closesAll_succ hdepth]
          refine ⟨fun hj => ⟨j, rfl, hj⟩, ?_⟩
          rintro ⟨m, hm, hclose⟩
          exact Nat.succ.inj hm ▸ hclose
      rw [isLeast_iff_of_shift hshift, Option.map_map]
      constructor
      · intro hmap
        obtain ⟨found, hfound, rfl⟩ := Option.map_eq_some_iff.mp hmap
        refine ⟨found.1.length, rfl, (ih hnext found.1.length).mp ?_⟩
        rw [hfound]
        rfl
      · rintro ⟨k, rfl, hk⟩
        obtain ⟨found, hfound, rfl⟩ := Option.map_eq_some_iff.mp ((ih hnext k).mpr hk)
        rw [hfound]
        rfl

end Count

/-- Counting from an opener on is counting behind it with one bracket open. -/
theorem closesAll_of_drop {t : Text} {s : Nat} {o : Char} {rest : Text} (hdrop : t.drop s = o :: rest)
    (ho : isOpener o = true) (j : Nat) :
    ((s : Int) < j ∧ j < t.length ∧
        (t.extract s (j + 1)).countP isOpener = (t.extract s (j + 1)).countP isCloser) ↔
      ∃ m, j = m + (s + 1) ∧ ClosesAll 1 rest m := by
  have hlength : t.length = s + 1 + rest.length := by
    have h := congrArg List.length hdrop
    rw [List.length_drop, List.length_cons] at h
    omega
  have hextract : ∀ m, t.extract s (m + (s + 1) + 1) = o :: rest.take (m + 1) := by
    intro m
    have hlast : m + (s + 1) + 1 - s = m + 1 + 1 := by omega
    rw [List.extract, hdrop, hlast, List.take_succ_cons]
  have hcount : ∀ m, (t.extract s (m + (s + 1) + 1)).countP isOpener = (t.extract s (m + (s + 1) + 1)).countP isCloser ↔
      1 + (rest.take (m + 1)).countP isOpener = (rest.take (m + 1)).countP isCloser := by
    intro m
    rw [hextract, List.countP_cons_of_pos ho, List.countP_cons_of_neg (by simp [isCloser_of_isOpener ho])]
    omega
  constructor
  · rintro ⟨hlt, hlen, heq⟩
    obtain ⟨m, rfl⟩ : ∃ m, j = m + (s + 1) := ⟨j - (s + 1), by omega⟩
    exact ⟨m, rfl, by omega, (hcount m).mp heq⟩
  · rintro ⟨m, rfl, hlen, heq⟩
    exact ⟨by omega, by omega, (hcount m).mpr heq⟩

/-- The closer of an opener is the first index by which the opener and all that opens behind it is closed. -/
theorem closerIndex?_eq_some_iff (t : Text) (start : Int) (i : Nat) :
    closerIndex? t start = some i ↔ IsCloserOf t start i := by
  by_cases hstart : start < 0
  · rw [closerIndex?, if_pos hstart]
    refine ⟨nofun, fun h => ?_⟩
    have hnonneg := h.opener.1
    omega
  obtain ⟨s, rfl⟩ := Int.eq_ofNat_of_zero_le (Int.not_lt.mp hstart)
  rw [closerIndex?, if_neg hstart, Int.toNat_natCast]
  have hget : t[s]? = (t.drop s).head? := List.head?_drop.symm
  cases hdrop : t.drop s with
  | nil =>
    refine ⟨nofun, fun h => ?_⟩
    obtain ⟨c, hc, -⟩ := h.opener.2
    rw [Int.toNat_natCast, hget, hdrop] at hc
    cases hc
  | cons o rest =>
    rw [hdrop, List.head?_cons] at hget
    dsimp only
    split
    · rename_i ho
      have hleast := isLeast_iff_of_shift (n := i) (closesAll_of_drop hdrop ho)
      constructor
      · intro h
        obtain ⟨found, hfound, rfl⟩ := Option.map_eq_some_iff.mp h
        have hfirst := (map_length_splitAtClose?_eq_some_iff Nat.one_pos rest found.1.length).mp (by rw [hfound]; rfl)
        exact ⟨⟨by omega, o, hget, ho⟩, hleast.mpr ⟨found.1.length, by omega, hfirst⟩⟩
      · intro h
        obtain ⟨k, rfl, hk⟩ := hleast.mp h.least
        obtain ⟨found, hfound, rfl⟩ :=
          Option.map_eq_some_iff.mp ((map_length_splitAtClose?_eq_some_iff Nat.one_pos rest k).mpr hk)
        rw [hfound, Option.map_some]
        exact congrArg some (by omega)
    · rename_i ho
      refine ⟨nofun, fun h => ?_⟩
      obtain ⟨c, hc, hopener⟩ := h.opener.2
      rw [Int.toNat_natCast, hget] at hc
      exact absurd (Option.some.inj hc ▸ hopener) ho

/-! ## What stands between -/

/-- The closer of an opener stands behind a balanced text. -/
theorem exists_of_closerIndex? {t : Text} {start : Int} {i : Nat} (h : closerIndex? t start = some i) :
    ∃ front o inside c rest, t = front ++ o :: (inside ++ c :: rest) ∧ start = front.length ∧
      i = front.length + 1 + inside.length ∧ isOpener o = true ∧ isBalanced inside = true := by
  rw [closerIndex?] at h
  split at h
  · cases h
  rename_i hstart
  split at h
  · cases h
  rename_i o behind hdrop
  split at h
  · rename_i ho
    obtain ⟨⟨inside, rest⟩, hsplit, rfl⟩ := Option.map_eq_some_iff.mp h
    obtain ⟨c, -, hclosed, rfl⟩ := exists_of_splitAtClose? hsplit
    have hlength : (t.take start.toNat).length = start.toNat := by
      have hlen := congrArg List.length hdrop
      rw [List.length_drop, List.length_cons] at hlen
      rw [List.length_take]
      omega
    refine ⟨t.take start.toNat, o, inside, c, rest, ?_, ?_, ?_, ho, hclosed⟩
    · rw [← hdrop, List.take_append_drop]
    · omega
    · show start.toNat + inside.length + 1 = _
      omega
  · cases h

/-- While a text closes its own brackets, those around it stay open. -/
theorem le_openAfter_of_isPrefix {depth : Nat} {s u : Text} (hs : closesFrom depth s = true) (hu : u <+: s) (e : Nat) :
    e ≤ openAfter (depth + e) u := by
  induction u generalizing depth s with
  | nil => exact Nat.le_add_left e depth
  | cons c u ih =>
    obtain ⟨v, rfl⟩ := hu
    rw [List.cons_append, closesFrom, Bool.and_eq_true, Bool.not_eq_true'] at hs
    rw [openAfter, List.foldl_cons, depthAfter_add hs.1]
    exact ih hs.2 (List.prefix_append u v)

/-- The character at an index is paired with the number of brackets that the text before it leaves open. -/
theorem getElem?_withDepths {depth : Nat} {t : Text} {k : Nat} {c : Char} {n : Nat}
    (h : (withDepths depth t)[k]? = some (c, n)) : openAfter depth (t.take k) = n := by
  rw [withDepths, List.getElem?_zip_eq_some, List.getElem?_scanl] at h
  split_ifs at h with hk
  · exact Option.some.inj h.2
  · cases h.2

/-- Between an opener and the closer behind a balanced text a bracket is open. -/
theorem openAfter_between {front inside u : Text} {o : Char} (ho : isOpener o = true) (hinside : isBalanced inside = true)
    (hu : u <+: inside) : 0 < openAfter 0 (front ++ o :: u) := by
  rw [openAfter_append]
  generalize openAfter 0 front = depth
  rw [openAfter, List.foldl_cons, depthAfter_of_isOpener ho]
  have hle := le_openAfter_of_isPrefix hinside hu (depth + 1)
  rw [Nat.zero_add] at hle
  exact Nat.lt_of_lt_of_le (Nat.succ_pos depth) hle

/-! ## Balanced parts -/

/-- Behind a text that leaves no bracket open another one is balanced by itself. -/
theorem closesFrom_append_of_openAfter {depth : Nat} {s : Text} (hs : openAfter depth s = 0) (t : Text) :
    closesFrom depth (s ++ t) = (closesFrom depth s && closesFrom 0 t) := by
  induction s generalizing depth with
  | nil =>
    obtain rfl : depth = 0 := hs
    rfl
  | cons c s ih => rw [List.cons_append, closesFrom, closesFrom, ih hs, Bool.and_assoc]

/-- The pieces of a balanced text are balanced. -/
theorem isBalanced_of_mem_segments {p : Char → Bool} {t : Text} (ht : isBalanced t = true) :
    ∀ s ∈ segments p 0 t, isBalanced s = true := by
  induction t using separator_induction (p := p) with
  | unbroken t h =>
    rw [segments_of_isUnbroken h]
    exact List.forall_mem_singleton.mpr ht
  | separated s c r hs hopen hc ih =>
    have hdepth := (depth_of_isTopSeparator hc).2
    rw [isBalanced, closesFrom_append_of_openAfter hopen, Bool.and_eq_true, closesFrom, hdepth, Bool.and_eq_true] at ht
    rw [segments_append_separator hopen hs hc]
    exact List.forall_mem_cons.mpr ⟨ht.1, ih ht.2.2⟩

/-- A trimmed text is balanced when the whole text is. -/
theorem isBalanced_strip {t : Text} (h : isBalanced t = true) : isBalanced (Text.strip t) = true := by
  obtain ⟨v, w, hv, hw, ht⟩ := Text.exists_append_strip_append t
  rw [← ht, isBalanced, closesFrom_append_of_isBalanced (isBalanced_of_blanks hw),
    closesFrom_append_of_openAfter (openAfter_of_blanks hv 0), Bool.and_eq_true] at h
  exact h.2

/-- The parts of a balanced text are balanced. -/
theorem isBalanced_of_mem_topPartsBy {p : Char → Bool} {t part : Text} (ht : isBalanced t = true)
    (h : part ∈ topPartsBy p t) : isBalanced part = true := by
  obtain ⟨s, hs, rfl⟩ := exists_of_mem_topPartsBy h
  exact isBalanced_strip (isBalanced_of_mem_segments ht s hs)

/-- **Matching closers.** The closer that is found for an index is the first character behind it up to which as many
brackets close as open from the index on, when an opener stands there, and none is found when there is no such
character. Whatever stands in front of the opener, the text is split at no character between the two, and what stands
between them is split into balanced parts by every separator. -/
theorem closerIndex?_spec (t : Text) (start : Int) :
    (∀ i, closerIndex? t start = some i ↔ IsCloserOf t start i) ∧
      (closerIndex? t start = none ↔ ∀ i, ¬ IsCloserOf t start i) ∧
      ∀ i, closerIndex? t start = some i →
        (∀ k : Nat, start < k → k < i → ∀ separator, (withDepths 0 t)[k]? ≠ some (separator, 0)) ∧
          ∀ separator, ∀ part ∈ topPartsAt separator (t.extract (start.toNat + 1) i), isBalanced part = true := by
  refine ⟨closerIndex?_eq_some_iff t start, ?_, fun i hi => ?_⟩
  · rw [Option.eq_none_iff_forall_ne_some]
    exact forall_congr' fun i => not_congr (closerIndex?_eq_some_iff t start i)
  · obtain ⟨front, o, inside, c, rest, rfl, rfl, rfl, ho, hinside⟩ := exists_of_closerIndex? hi
    refine ⟨fun k hfirst hlast separator hpair => ?_, fun separator part hpart => ?_⟩
    · -- The text before the index is the front, the opener and a start of what stands inside.
      obtain ⟨m, rfl⟩ : ∃ m, k = front.length + (m + 1) := ⟨k - front.length - 1, by omega⟩
      have htake : (front ++ o :: (inside ++ c :: rest)).take (front.length + (m + 1)) = front ++ o :: inside.take m := by
        rw [List.take_length_add_append, List.take_succ_cons, List.take_append_of_le_length (by omega)]
      have hdepth := getElem?_withDepths hpair
      rw [htake] at hdepth
      have hopen : 0 < openAfter 0 (front ++ o :: inside.take m) :=
        openAfter_between ho hinside (List.take_prefix m inside)
      omega
    · have hextract : (front ++ o :: (inside ++ c :: rest)).extract (front.length + 1) (front.length + 1 + inside.length) =
          inside := by
        simp [List.extract]
      rw [Int.toNat_natCast, hextract] at hpart
      exact isBalanced_of_mem_topPartsBy hinside hpart

/-- A group behind stray closers, with a bracket of another kind and separators in it. -/
theorem closerIndex?_spec_of_stray :
    let t : Text := ")> a, <b, (c\x7d, d] , e"
    closerIndex? t 6 = some 16 ∧ IsCloserOf t 6 16 ∧ (withDepths 0 t)[8]? ≠ some (',', 0) ∧
      ∀ part ∈ topPartsAt [','] "b, (c\x7d, d", isBalanced part = true := by
  intro t
  obtain ⟨hiff, -, hinside⟩ := closerIndex?_spec t 6
  have hfound : closerIndex? t 6 = some 16 := by decide
  obtain ⟨hdepths, hparts⟩ := hinside 16 hfound
  exact ⟨hfound, (hiff 16).mp hfound, hdepths 8 (by decide) (by decide) ',', hparts [',']⟩

end LuaTypings.TypeText
