import Mathlib.Data.List.Basic

/-! # Writing into windows of a list

A write replaces as many elements as it brings, at an index. Runs of writes into
windows of one width that coincide or lie apart are last-write-wins. -/
namespace Library

variable {α : Type}

/-- The `n` elements from `i` on. -/
def readAt (l : List α) (i n : Nat) : List α := (l.drop i).take n

def writeAt (l : List α) (i : Nat) (d : List α) : List α :=
  l.take i ++ d ++ l.drop (i + d.length)

/-- The writes in turn, each with its index. -/
def writeAll (l : List α) (ws : List (Nat × List α)) : List α :=
  ws.foldl (fun l w => writeAt l w.1 w.2) l

/-! ## One write -/

theorem readAt_getElem? (l : List α) (i n k : Nat) :
    (readAt l i n)[k]? = if k < n then l[i + k]? else none := by
  rw [readAt, List.getElem?_take]
  split
  · rw [List.getElem?_drop]
  · rfl

/-- Two readings of one window agree when the elements do. -/
theorem readAt_congr {l l' : List α} {i n : Nat} (h : ∀ k, i ≤ k → k < i + n → l[k]? = l'[k]?) :
    readAt l i n = readAt l' i n := by
  apply List.ext_getElem?
  intro k
  rw [readAt_getElem?, readAt_getElem?]
  split
  · rw [h (i + k) (by omega) (by omega)]
  · rfl

theorem readAt_add (l : List α) (i m n : Nat) :
    readAt l i (m + n) = readAt l i m ++ readAt l (i + m) n := by
  rw [readAt, readAt, readAt, List.take_add, List.drop_drop]

/-- Replacing an element of a window. -/
theorem readAt_set {l : List α} {i k n : Nat} {a : α} (h : i ≤ k) :
    readAt (l.set k a) i n = (readAt l i n).set (k - i) a := by
  rw [readAt, readAt, List.drop_set, if_neg (by omega), List.take_set]

theorem length_writeAt {l d : List α} {i : Nat} (h : i + d.length ≤ l.length) :
    (writeAt l i d).length = l.length := by
  rw [writeAt, List.length_append, List.length_append, List.length_take, List.length_drop]
  omega

theorem writeAt_getElem? {l d : List α} {i : Nat} (h : i + d.length ≤ l.length) (k : Nat) :
    (writeAt l i d)[k]? =
      if i ≤ k ∧ k < i + d.length then d[k - i]? else l[k]? := by
  have hi : (l.take i).length = i := by rw [List.length_take]; omega
  rw [writeAt, List.append_assoc, List.getElem?_append, hi]
  by_cases hk : k < i
  · rw [if_pos hk, if_neg (by omega), List.getElem?_take, if_pos hk]
  · rw [if_neg hk, List.getElem?_append]
    by_cases hd : k - i < d.length
    · rw [if_pos hd, if_pos (by omega)]
    · rw [if_neg hd, if_neg (by omega), List.getElem?_drop]
      congr 1
      omega

theorem readAt_writeAt_self {l d : List α} {i : Nat} (h : i + d.length ≤ l.length) :
    readAt (writeAt l i d) i d.length = d := by
  apply List.ext_getElem?
  intro k
  rw [readAt_getElem?, writeAt_getElem? h]
  by_cases hk : k < d.length
  · rw [if_pos hk, if_pos (by omega), Nat.add_sub_cancel_left]
  · rw [if_neg hk, List.getElem?_eq_none (by omega)]

/-- Writing what is there changes nothing. -/
theorem writeAt_eq_self {l d : List α} {i : Nat} (h : i + d.length ≤ l.length)
    (hd : readAt l i d.length = d) : writeAt l i d = l := by
  apply List.ext_getElem?
  intro k
  rw [writeAt_getElem? h]
  split
  · rename_i hk
    have hread := readAt_getElem? l i d.length (k - i)
    rw [hd, if_pos (by omega), Nat.add_sub_cancel' hk.1] at hread
    exact hread
  · rfl

/-! ## Runs of writes -/

/-- Every write is `n` wide and inside a list of length `size`. -/
def Fits (size n : Nat) (ws : List (Nat × List α)) : Prop :=
  ∀ w ∈ ws, w.2.length = n ∧ w.1 + n ≤ size

/-- Windows of width `n` at two indices have no element in common. -/
def Apart (n i j : Nat) : Prop := i + n ≤ j ∨ j + n ≤ i

theorem writeAll_cons (l : List α) (w : Nat × List α) (ws : List (Nat × List α)) :
    writeAll l (w :: ws) = writeAll (writeAt l w.1 w.2) ws := rfl

theorem writeAll_append (l : List α) (ws ws' : List (Nat × List α)) :
    writeAll l (ws ++ ws') = writeAll (writeAll l ws) ws' := List.foldl_append

theorem Fits.tail {size n : Nat} {w : Nat × List α} {ws : List (Nat × List α)}
    (h : Fits size n (w :: ws)) : Fits size n ws := fun x hx => h x (List.mem_cons_of_mem _ hx)

theorem Fits.append {size n : Nat} {ws ws' : List (Nat × List α)} (h : Fits size n ws)
    (h' : Fits size n ws') : Fits size n (ws ++ ws') := fun w hw =>
  (List.mem_append.mp hw).elim (h w) (h' w)

theorem length_writeAll {size n : Nat} {ws : List (Nat × List α)} :
    ∀ {l : List α}, l.length = size → Fits size n ws → (writeAll l ws).length = size := by
  induction ws with
  | nil => exact fun hl _ => hl
  | cons w ws ih =>
    intro l hl hfits
    obtain ⟨hlen, hw⟩ := hfits w List.mem_cons_self
    exact ih ((length_writeAt (by omega)).trans hl) hfits.tail

/-- What no window covers stays as it was. -/
theorem writeAll_getElem?_of_outside {size n : Nat} {ws : List (Nat × List α)} {k : Nat} :
    ∀ {l : List α}, l.length = size → Fits size n ws → (∀ w ∈ ws, k < w.1 ∨ w.1 + n ≤ k) →
      (writeAll l ws)[k]? = l[k]? := by
  induction ws with
  | nil => exact fun _ _ _ => rfl
  | cons w ws ih =>
    intro l hl hfits hout
    obtain ⟨hlen, hw⟩ := hfits w List.mem_cons_self
    have hk := hout w List.mem_cons_self
    rw [writeAll_cons, ih ((length_writeAt (by omega)).trans hl) hfits.tail fun x hx =>
      hout x (List.mem_cons_of_mem _ hx), writeAt_getElem? (by omega), if_neg (by omega)]

theorem writeAll_eq_self {size n : Nat} {l : List α} {ws : List (Nat × List α)}
    (hl : l.length = size) (hfits : Fits size n ws) (hws : ∀ w ∈ ws, readAt l w.1 n = w.2) :
    writeAll l ws = l := by
  induction ws with
  | nil => rfl
  | cons w ws ih =>
    obtain ⟨hlen, hw⟩ := hfits w List.mem_cons_self
    have hread := hws w List.mem_cons_self
    rw [← hlen] at hread
    rw [writeAll_cons, writeAt_eq_self (by omega) hread]
    exact ih hfits.tail fun x hx => hws x (List.mem_cons_of_mem _ hx)

/-- A window keeps what it holds when it is only written again, or left alone. -/
theorem readAt_writeAll_settled {size n i : Nat} {d : List α} {ws : List (Nat × List α)} :
    ∀ {l : List α}, l.length = size → Fits size n ws → readAt l i n = d →
      (∀ w ∈ ws, w = (i, d) ∨ Apart n i w.1) → readAt (writeAll l ws) i n = d := by
  induction ws with
  | nil => exact fun _ _ hd _ => hd
  | cons w ws ih =>
    intro l hl hfits hd hws
    obtain ⟨hlen, hw⟩ := hfits w List.mem_cons_self
    have hfit : w.1 + w.2.length ≤ l.length := by omega
    refine ih ((length_writeAt hfit).trans hl) hfits.tail ?_ fun x hx =>
      hws x (List.mem_cons_of_mem _ hx)
    rcases hws w List.mem_cons_self with rfl | hapart
    · have hself := readAt_writeAt_self hfit
      rwa [hlen] at hself
    · rw [← hd]
      refine readAt_congr fun k hk hk' => ?_
      rw [writeAt_getElem? hfit, if_neg]
      rcases hapart with h | h <;> omega

/-- The last write into a window is what it holds. -/
theorem readAt_writeAll_last {size n i : Nat} {d : List α} {pre post : List (Nat × List α)}
    {l : List α} (hl : l.length = size) (hfits : Fits size n (pre ++ (i, d) :: post))
    (hpost : ∀ w ∈ post, w = (i, d) ∨ Apart n i w.1) :
    readAt (writeAll l (pre ++ (i, d) :: post)) i n = d := by
  have hpre : Fits size n pre := fun w hw => hfits w (List.mem_append_left _ hw)
  have hrest : Fits size n ((i, d) :: post) := fun w hw => hfits w (List.mem_append_right _ hw)
  obtain ⟨hd, hi⟩ := hrest (i, d) List.mem_cons_self
  have hlen := length_writeAll hl hpre
  have hw : i + d.length ≤ (writeAll l pre).length := by rw [hlen, hd]; exact hi
  rw [writeAll_append, writeAll_cons]
  refine readAt_writeAll_settled ((length_writeAt hw).trans hlen) hrest.tail ?_ hpost
  have hself := readAt_writeAt_self hw
  rwa [hd] at hself

end Library
