/-! # Words

The words of a list are its longest runs without separators. -/
namespace Library

variable {α : Type} {p : α → Bool}

def words (p : α → Bool) (l : List α) : List (List α) := (l.splitOnP p).filter fun w => !w.isEmpty

@[simp] theorem words_nil : words p [] = [] := rfl

/-- A separator stands between words. -/
theorem words_append_cons (xs as : List α) {sep : α} (hsep : p sep = true) :
    words p (xs ++ sep :: as) = words p xs ++ words p as := by
  rw [words, List.splitOnP_append_cons xs as hsep, List.filter_append]
  rfl

theorem words_cons_of_pos {sep : α} (hsep : p sep = true) (l : List α) :
    words p (sep :: l) = words p l := words_append_cons [] l hsep

/-- What holds no separator is one word. -/
theorem words_eq_singleton {w : List α} (h : ∀ x ∈ w, p x = false) (hne : w ≠ []) :
    words p w = [w] := by
  rw [words, List.splitOnP_eq_singleton h, List.filter_cons_of_pos]
  · rfl
  · cases w with
    | nil => exact absurd rfl hne
    | cons x w => rfl

/-- Behind the dropped elements stands one that is kept. -/
theorem dropWhile_head {l rest : List α} {x : α} (h : l.dropWhile p = x :: rest) :
    p x = false := by
  have hhead := List.head?_dropWhile_not p l
  rw [h] at hhead
  simpa using hhead

theorem words_dropWhile (l : List α) : words p (l.dropWhile p) = words p l := by
  induction l with
  | nil => rfl
  | cons x l ih =>
    cases hx : p x with
    | true => rw [List.dropWhile_cons_of_pos hx, ih, words_cons_of_pos hx]
    | false => rw [List.dropWhile_cons_of_neg (by simp [hx])]

/-- The first word, and those behind it. -/
theorem words_takeWhile {x : α} {l : List α} (hx : p x = false) :
    words p (x :: l) = (x :: l).takeWhile (fun c => !p c) ::
      words p ((x :: l).dropWhile fun c => !p c) := by
  have hword : ∀ c ∈ (x :: l).takeWhile (fun c => !p c), p c = false := fun c hc => by
    simpa using List.all_eq_true.mp List.all_takeWhile c hc
  have hne : (x :: l).takeWhile (fun c => !p c) ≠ [] := by simp [hx]
  have hsplit : (x :: l).takeWhile (fun c => !p c) ++ (x :: l).dropWhile (fun c => !p c) = x :: l :=
    List.takeWhile_append_dropWhile
  cases hrest : (x :: l).dropWhile fun c => !p c with
  | nil =>
    rw [hrest, List.append_nil] at hsplit
    rw [words_nil, ← words_eq_singleton hword hne, hsplit]
  | cons sep rest =>
    have hsep : p sep = true := by simpa using dropWhile_head hrest
    rw [hrest] at hsplit
    rw [words_cons_of_pos hsep]
    calc words p (x :: l)
        = words p ((x :: l).takeWhile (fun c => !p c) ++ sep :: rest) := by rw [hsplit]
      _ = words p ((x :: l).takeWhile fun c => !p c) ++ words p rest := words_append_cons _ _ hsep
      _ = _ := by rw [words_eq_singleton hword hne, List.singleton_append]

/-- Lines, and then the words of each. -/
theorem words_intercalate {sep : α} (hsep : p sep = true) (lines : List (List α)) :
    words p (List.intercalate [sep] lines) = lines.flatMap (words p) := by
  induction lines with
  | nil => rfl
  | cons line lines ih =>
    cases lines with
    | nil => rw [List.intercalate_singleton, List.flatMap_singleton]
    | cons next lines =>
      rw [List.intercalate_cons_cons, List.append_assoc, List.singleton_append,
        words_append_cons _ _ hsep, ih]
      rfl

theorem splitOnP_free : ∀ l : List α, ∀ w ∈ l.splitOnP p, ∀ x ∈ w, p x = false := by
  intro l
  induction l with
  | nil => simp
  | cons c l ih =>
    rw [List.splitOnP_cons_eq_if_modifyHead]
    cases hc : p c with
    | true => simpa using ih
    | false =>
      cases hl : l.splitOnP p with
      | nil => exact absurd hl (List.splitOnP_ne_nil p l)
      | cons first rest =>
        rw [hl] at ih
        simpa [hc] using ih

theorem mem_words {w l : List α} (h : w ∈ words p l) : w ≠ [] ∧ ∀ x ∈ w, p x = false := by
  obtain ⟨hmem, hne⟩ := List.mem_filter.mp h
  exact ⟨by simpa using hne, splitOnP_free l w hmem⟩

end Library
