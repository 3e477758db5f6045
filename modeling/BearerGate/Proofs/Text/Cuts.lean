import BearerGate.Text.Blank
import Mathlib.Data.List.DropRight

namespace BearerGate.Text

section

variable {α : Type} [DecidableEq α]

theorem cut?_eq_some_iff {c : α} {xs a b : List α} :
    cut? c xs = some (a, b) ↔ xs = a ++ c :: b ∧ c ∉ a := by
  induction xs generalizing a with
  | nil => simp [cut?]
  | cons x xs ih =>
    by_cases hx : x = c
    · subst x
      cases a with
      | nil => simp [cut?, eq_comm]
      | cons y ys => simp +contextual [cut?, eq_comm]
    · cases a with
      | nil => simp [cut?, hx]
      | cons y ys =>
        constructor
        · intro h
          obtain ⟨hf, rfl⟩ : cut? c xs = some (ys, b) ∧ x = y := by simpa [cut?, hx] using h
          obtain ⟨rfl, hc⟩ := ih.mp hf
          exact ⟨rfl, by simp [Ne.symm hx, hc]⟩
        · rintro ⟨he, hc⟩
          obtain ⟨rfl, ht⟩ := List.cons.inj he
          have hys : c ∉ ys := fun hm => hc (List.mem_cons_of_mem _ hm)
          simp [cut?, hx, ih.mpr ⟨ht, hys⟩]

theorem cut?_eq_none_iff {c : α} {xs : List α} : cut? c xs = none ↔ c ∉ xs := by
  induction xs with
  | nil => simp [cut?]
  | cons x xs ih =>
    by_cases hx : x = c
    · simp [cut?, hx]
    · simp [cut?, hx, ih, Ne.symm hx]

theorem cutLast?_eq_none_iff {c : α} {xs : List α} : cutLast? c xs = none ↔ c ∉ xs := by
  induction xs with
  | nil => simp [cutLast?]
  | cons x xs ih =>
    cases hr : cutLast? c xs with
    | some found =>
      have hm : c ∈ xs := by
        by_contra h
        simp [ih.mpr h] at hr
      simp [cutLast?, hr, hm]
    | none => simp [cutLast?, hr, ih.mp hr, eq_comm]

theorem cutLast?_eq_some_iff {c : α} {xs a b : List α} :
    cutLast? c xs = some (a, b) ↔ xs = a ++ c :: b ∧ c ∉ b := by
  induction xs generalizing a b with
  | nil => simp [cutLast?]
  | cons x xs ih =>
    cases hr : cutLast? c xs with
    | some found =>
      obtain ⟨a', b'⟩ := found
      obtain ⟨rfl, hb⟩ := ih.mp hr
      constructor
      · intro h
        simp only [cutLast?, hr, Option.some.injEq, Prod.mk.injEq] at h
        obtain ⟨rfl, rfl⟩ := h
        exact ⟨rfl, hb⟩
      · rintro ⟨he, hc⟩
        cases a with
        | nil =>
          obtain ⟨_, rfl⟩ := List.cons.inj he
          simp at hc
        | cons y ys =>
          obtain ⟨rfl, ht⟩ := List.cons.inj he
          have hs := ih.mpr ⟨ht, hc⟩
          rw [hr] at hs
          cases hs
          simp [cutLast?, hr]
    | none =>
      have hm := cutLast?_eq_none_iff.mp hr
      cases a with
      | nil =>
        by_cases hx : x = c
        · subst x
          constructor
          · intro h
            obtain rfl : xs = b := by simpa [cutLast?, hr] using h
            exact ⟨rfl, hm⟩
          · rintro ⟨he, _⟩
            obtain ⟨_, rfl⟩ := List.cons.inj he
            simp [cutLast?, hr]
        · simp [cutLast?, hr, hx]
      | cons y ys =>
        constructor
        · intro h
          by_cases hx : x = c <;> simp [cutLast?, hr, hx] at h
        · rintro ⟨he, _⟩
          obtain ⟨_, rfl⟩ := List.cons.inj he
          simp at hm

/-- The first part runs to the first `c`, and the others are the parts behind it. -/
theorem splitOn_eq_cons_iff {c : α} {xs a : List α} {rest : List (List α)} :
    xs.splitOn c = a :: rest ↔
      c ∉ a ∧ (xs = a ∧ rest = [] ∨ ∃ b, xs = a ++ c :: b ∧ b.splitOn c = rest) := by
  constructor
  · intro h
    by_cases hc : c ∈ xs
    · cases hcut : cut? c xs with
      | none => exact absurd hc (cut?_eq_none_iff.mp hcut)
      | some found =>
        obtain ⟨a', b⟩ := found
        obtain ⟨rfl, ha⟩ := cut?_eq_some_iff.mp hcut
        rw [List.splitOn_append_cons_self_of_not_mem ha] at h
        obtain ⟨rfl, rfl⟩ := List.cons.inj h
        exact ⟨ha, .inr ⟨b, rfl, rfl⟩⟩
    · rw [List.splitOn_eq_singleton hc] at h
      obtain ⟨rfl, rfl⟩ := List.cons.inj h
      exact ⟨hc, .inl ⟨rfl, rfl⟩⟩
  · rintro ⟨ha, ⟨rfl, rfl⟩ | ⟨b, rfl, rfl⟩⟩
    · exact List.splitOn_eq_singleton ha
    · exact List.splitOn_append_cons_self_of_not_mem ha b

theorem splitOn_eq_three_iff {c : α} {xs p q r : List α} :
    xs.splitOn c = [p, q, r] ↔ xs = p ++ c :: (q ++ c :: r) ∧ c ∉ p ∧ c ∉ q ∧ c ∉ r := by
  constructor
  · intro h
    obtain ⟨hp, ⟨_, hn⟩ | ⟨b, rfl, hb⟩⟩ := splitOn_eq_cons_iff.mp h
    · simp at hn
    obtain ⟨hq, ⟨_, hn⟩ | ⟨b', rfl, hb'⟩⟩ := splitOn_eq_cons_iff.mp hb
    · simp at hn
    obtain ⟨hr, ⟨rfl, _⟩ | ⟨b'', _, hb''⟩⟩ := splitOn_eq_cons_iff.mp hb'
    · exact ⟨rfl, hp, hq, hr⟩
    · exact absurd hb'' (List.splitOn_ne_nil c b'')
  · rintro ⟨rfl, hp, hq, hr⟩
    rw [List.splitOn_append_cons_self_of_not_mem hp, List.splitOn_append_cons_self_of_not_mem hq,
      List.splitOn_eq_singleton hr]

theorem splitOn_map {β : Type} [DecidableEq β] {f : α → β} {c : α} {d : β}
    (h : ∀ x, f x = d ↔ x = c) (xs : List α) :
    (xs.map f).splitOn d = (xs.splitOn c).map (List.map f) := by
  induction xs with
  | nil => rfl
  | cons x xs ih =>
    rw [List.map_cons, List.splitOn_cons_eq_if_modifyHead, List.splitOn_cons_eq_if_modifyHead, ih]
    by_cases hx : x = c
    · simp [hx, (h c).mpr rfl]
    · have hf : f x ≠ d := mt (h x).mp hx
      obtain ⟨p, ps, hparts⟩ := List.exists_cons_of_ne_nil (List.splitOn_ne_nil c xs)
      simp [hx, hf, hparts]

/-- What stands in front of a text without a `c` goes to its first part. -/
theorem splitOn_append_left {c : α} {left xs p : List α} {ps : List (List α)} (hleft : c ∉ left)
    (h : xs.splitOn c = p :: ps) : (left ++ xs).splitOn c = (left ++ p) :: ps := by
  obtain ⟨hp, hrest⟩ := splitOn_eq_cons_iff.mp h
  have hfirst : c ∉ left ++ p := fun hmem => (List.mem_append.mp hmem).elim hleft hp
  apply splitOn_eq_cons_iff.mpr
  rcases hrest with ⟨rfl, rfl⟩ | ⟨b, rfl, hb⟩
  · exact ⟨hfirst, .inl ⟨rfl, rfl⟩⟩
  · exact ⟨hfirst, .inr ⟨b, by rw [List.append_assoc], hb⟩⟩

/-- What stands behind a text without a `c` goes to its last part. -/
theorem splitOn_append_right {c : α} {right : List α} (hright : c ∉ right) (xs : List α) :
    ∃ ps p, xs.splitOn c = ps ++ [p] ∧ (xs ++ right).splitOn c = ps ++ [p ++ right] := by
  cases hcut : cutLast? c xs with
  | none =>
    have hxs := cutLast?_eq_none_iff.mp hcut
    have hall : c ∉ xs ++ right := fun hmem => (List.mem_append.mp hmem).elim hxs hright
    exact ⟨[], xs, List.splitOn_eq_singleton hxs, List.splitOn_eq_singleton hall⟩
  | some found =>
    obtain ⟨a, b⟩ := found
    obtain ⟨rfl, hb⟩ := cutLast?_eq_some_iff.mp hcut
    have hall : c ∉ b ++ right := fun hmem => (List.mem_append.mp hmem).elim hb hright
    refine ⟨a.splitOn c, b, ?_, ?_⟩
    · rw [List.splitOn_append_cons_self, List.splitOn_eq_singleton hb]
    · rw [List.append_assoc, List.cons_append, List.splitOn_append_cons_self,
        List.splitOn_eq_singleton hall]

end

theorem trimEnd_eq_rdropWhile {α : Type} (p : α → Bool) (xs : List α) :
    trimEnd p xs = xs.rdropWhile p := rfl

theorem trimEnd_append {α : Type} (p : α → Bool) (xs : List α) :
    ∃ right, xs = trimEnd p xs ++ right ∧ ∀ x ∈ right, p x = true := by
  refine ⟨xs.rtakeWhile p, ?_, fun x hx => List.mem_rtakeWhile_imp hx⟩
  rw [trimEnd_eq_rdropWhile, List.rdropWhile_append_rtakeWhile]

theorem trim_append {α : Type} (p : α → Bool) (xs : List α) :
    ∃ left right, xs = left ++ trim p xs ++ right ∧ (∀ x ∈ left, p x = true) ∧
      ∀ x ∈ right, p x = true := by
  obtain ⟨right, he, hr⟩ := trimEnd_append p (xs.dropWhile p)
  refine ⟨xs.takeWhile p, right, ?_, fun x hx => List.mem_takeWhile_imp hx, hr⟩
  rw [trim, List.append_assoc, ← he, List.takeWhile_append_dropWhile]

theorem trim_map {α β : Type} {f : α → β} {p : α → Bool} {q : β → Bool} (h : ∀ x, q (f x) = p x)
    (xs : List α) : trim q (xs.map f) = (trim p xs).map f := by
  have hq : q ∘ f = p := funext h
  simp only [trim, trimEnd, List.dropWhile_map, hq, ← List.map_reverse]

section

variable {α : Type} {p : α → Bool} {xs ys right : List α}

/-- `p` holds of neither end. -/
structure Trimmed (p : α → Bool) (xs : List α) : Prop where
  head : ∀ x, xs.head? = some x → p x = false
  last : ∀ x, xs.getLast? = some x → p x = false

theorem Trimmed.surround {left : List α} (h : Trimmed p xs) (hleft : ∀ x ∈ left, p x = false)
    (hright : ∀ x ∈ right, p x = false) : Trimmed p (left ++ xs ++ right) where
  head x hx := by
    rw [List.head?_append, List.head?_append] at hx
    rcases Option.or_eq_some_iff.mp hx with hx | ⟨_, hx⟩
    · rcases Option.or_eq_some_iff.mp hx with hx | ⟨_, hx⟩
      · exact hleft x (List.mem_of_mem_head? hx)
      · exact h.head x hx
    · exact hright x (List.mem_of_mem_head? hx)
  last x hx := by
    rw [List.getLast?_append, List.getLast?_append] at hx
    rcases Option.or_eq_some_iff.mp hx with hx | ⟨_, hx⟩
    · exact hright x (List.mem_of_getLast? hx)
    · rcases Option.or_eq_some_iff.mp hx with hx | ⟨_, hx⟩
      · exact h.last x hx
      · exact hleft x (List.mem_of_getLast? hx)

theorem trimEnd_eq_self_iff : trimEnd p xs = xs ↔ ∀ x, xs.getLast? = some x → p x = false := by
  rw [trimEnd_eq_rdropWhile, List.rdropWhile_eq_self_iff]
  constructor
  · intro h x hx
    have hne : xs ≠ [] := by
      rintro rfl
      simp at hx
    have hlast : xs.getLast hne = x := by simpa [List.getLast?_eq_getLast_of_ne_nil hne] using hx
    simpa [hlast] using h hne
  · intro h hne
    simpa using h _ (List.getLast?_eq_getLast_of_ne_nil hne)

theorem last_trimEnd {x : α} (h : (trimEnd p xs).getLast? = some x) : p x = false := by
  have hself : trimEnd p (trimEnd p xs) = trimEnd p xs := by
    simp only [trimEnd_eq_rdropWhile, List.rdropWhile_idempotent]
  exact trimEnd_eq_self_iff.mp hself x h

theorem trimEnd_append_of_forall (h : ∀ x ∈ right, p x = true) :
    trimEnd p (xs ++ right) = trimEnd p xs := by
  have hr : ∀ x ∈ right.reverse, p x = true := fun x hx => h x (List.mem_reverse.mp hx)
  rw [trimEnd, trimEnd, List.reverse_append, List.dropWhile_append_of_pos hr]

theorem trimEnd_eq_iff :
    trimEnd p xs = ys ↔ (∃ right, xs = ys ++ right ∧ ∀ x ∈ right, p x = true) ∧
      ∀ x, ys.getLast? = some x → p x = false := by
  constructor
  · rintro rfl
    exact ⟨trimEnd_append p xs, fun _ => last_trimEnd⟩
  · rintro ⟨⟨right, rfl, hr⟩, hlast⟩
    rw [trimEnd_append_of_forall hr]
    exact trimEnd_eq_self_iff.mpr hlast

theorem head?_trimEnd {x : α} (h : (trimEnd p xs).head? = some x) : xs.head? = some x := by
  obtain ⟨right, he, _⟩ := trimEnd_append p xs
  rw [he, List.head?_append, h]
  rfl

theorem trimmed_trim : Trimmed p (trim p xs) where
  head x hx := by
    have hhead : (xs.dropWhile p).head? = some x := head?_trimEnd hx
    have hno := List.head?_dropWhile_not p xs
    rw [hhead] at hno
    exact hno
  last _ := last_trimEnd

/-- A list is trimmed to its trimmed stretch with only what `p` holds of around it. -/
theorem trim_eq_iff :
    trim p xs = ys ↔ Trimmed p ys ∧ ∃ left right, xs = left ++ ys ++ right ∧
      (∀ x ∈ left, p x = true) ∧ ∀ x ∈ right, p x = true := by
  constructor
  · rintro rfl
    exact ⟨trimmed_trim, trim_append p xs⟩
  · rintro ⟨⟨hhead, hlast⟩, left, right, rfl, hl, hr⟩
    rw [trim, List.append_assoc, List.dropWhile_append_of_pos hl]
    cases ys with
    | nil =>
      have hnil : right.dropWhile p = [] := List.dropWhile_eq_nil_iff.mpr hr
      rw [List.nil_append, hnil]
      rfl
    | cons y ys =>
      have hy : p y = false := hhead y rfl
      rw [List.cons_append, List.dropWhile_cons_of_neg (by simp [hy])]
      exact trimEnd_eq_iff.mpr ⟨⟨right, rfl, hr⟩, hlast⟩

theorem trim_eq_self_iff : trim p xs = xs ↔ Trimmed p xs := by
  constructor
  · intro h
    rw [← h]
    exact trimmed_trim
  · intro h
    exact trim_eq_iff.mpr ⟨h, [], [], by simp⟩

theorem trim_surround {left : List α} (hleft : ∀ x ∈ left, p x = true)
    (hright : ∀ x ∈ right, p x = true) : trim p (left ++ xs ++ right) = trim p xs := by
  obtain ⟨l, r, he, hl, hr⟩ := trim_append p xs
  apply trim_eq_iff.mpr
  refine ⟨trimmed_trim, left ++ l, r ++ right, ?_, ?_, ?_⟩
  · have hsplit : left ++ xs ++ right = left ++ (l ++ trim p xs ++ r) ++ right := by rw [← he]
    rw [hsplit]
    simp only [List.append_assoc]
  · intro x hx
    exact (List.mem_append.mp hx).elim (hleft x) (hl x)
  · intro x hx
    exact (List.mem_append.mp hx).elim (hr x) (hright x)

theorem trimEnd_sublist : (trimEnd p xs).Sublist xs := by
  rw [trimEnd_eq_rdropWhile]
  exact (List.rdropWhile_prefix p xs).sublist

theorem trim_sublist : (trim p xs).Sublist xs :=
  trimEnd_sublist.trans (List.dropWhile_sublist p)

theorem head?_trimEnd_iff {x : α} (hx : p x = false) :
    (trimEnd p xs).head? = some x ↔ xs.head? = some x := by
  refine ⟨head?_trimEnd, ?_⟩
  intro h
  obtain ⟨right, he, hr⟩ := trimEnd_append p xs
  cases ht : trimEnd p xs with
  | nil =>
    rw [ht, List.nil_append] at he
    have hmem : x ∈ right := List.mem_of_mem_head? (he ▸ h)
    simp [hr x hmem] at hx
  | cons y ys =>
    rw [ht, List.cons_append] at he
    rw [he] at h
    exact h

theorem trimEnd_append_of_exists (h : ∃ y ∈ ys, p y = false) :
    trimEnd p (xs ++ ys) = xs ++ trimEnd p ys := by
  obtain ⟨y, hy, hpy⟩ := h
  have hne : (ys.reverse.dropWhile p).isEmpty ≠ true := by
    intro hempty
    have hall := List.dropWhile_eq_nil_iff.mp (List.isEmpty_iff.mp hempty)
    simp [hall y (List.mem_reverse.mpr hy)] at hpy
  rw [trimEnd, List.reverse_append, List.dropWhile_append, if_neg hne, List.reverse_append,
    List.reverse_reverse, trimEnd]

/-- A head that ends in what is trimmed survives before something that is not. -/
theorem prefix_trimEnd_iff {head : List α} {x : α} (hlast : head.getLast? = some x)
    (hx : p x = true) :
    head <+: trimEnd p xs ↔ ∃ rest, xs = head ++ rest ∧ ∃ y ∈ rest, p y = false := by
  constructor
  · rintro ⟨rest, hrest⟩
    obtain ⟨right, he, _⟩ := trimEnd_append p xs
    have hsplit : xs = head ++ (rest ++ right) := by rw [← List.append_assoc, hrest, ← he]
    refine ⟨rest ++ right, hsplit, ?_⟩
    cases hy : rest.getLast? with
    | none =>
      have hself : trimEnd p xs = head := by
        rw [← hrest, List.getLast?_eq_none_iff.mp hy, List.append_nil]
      rw [← hself] at hlast
      simp [last_trimEnd hlast] at hx
    | some y =>
      have hend : (trimEnd p xs).getLast? = some y := by
        rw [← hrest, List.getLast?_append, hy]
        rfl
      exact ⟨y, List.mem_append_left _ (List.mem_of_getLast? hy), last_trimEnd hend⟩
  · rintro ⟨rest, rfl, hrest⟩
    rw [trimEnd_append_of_exists hrest]
    exact List.prefix_append _ _

end

section

variable {head t r : Text}

theorem dropHead_eq_iff : dropHead head t = r ↔ t = head ++ r ∨ t = r ∧ ¬head <+: r := by
  unfold dropHead
  cases hp : head.isPrefixOf? t with
  | some rest =>
    obtain rfl : head ++ rest = t := List.isPrefixOf?_eq_some_iff_append_eq.mp hp
    have hno : ¬(head ++ rest = r ∧ ¬head <+: r) := by
      rintro ⟨rfl, h⟩
      exact h (List.prefix_append _ _)
    simp [hno]
  | none =>
    have hno : ¬head <+: t := by
      rintro ⟨rest, he⟩
      simp [List.isPrefixOf?_eq_some_iff_append_eq.mpr he] at hp
    constructor
    · rintro rfl
      exact .inr ⟨rfl, hno⟩
    · rintro (rfl | ⟨rfl, _⟩)
      · exact absurd (List.prefix_append _ _) hno
      · rfl

theorem dropHead_sublist : (dropHead head t).Sublist t := by
  rcases dropHead_eq_iff.mp (rfl : dropHead head t = dropHead head t) with h | ⟨h, _⟩
  · have hright := List.sublist_append_right head (dropHead head t)
    rwa [← h] at hright
  · rw [← h]

theorem dropHead_eq_self_iff (hne : head ≠ []) : dropHead head t = t ↔ ¬head <+: t := by
  rw [dropHead_eq_iff]
  constructor
  · rintro (h | ⟨_, h⟩)
    · exact absurd (List.self_eq_append_left.mp h) hne
    · exact h
  · exact fun h => .inr ⟨rfl, h⟩

end

end BearerGate.Text
