import SelfChecksumming.Pass.Guard
import SelfChecksumming.Patcher.DumpPipe

/-! # Reading a guide that the pass wrote

What `fprintf` prints, `readlines`, `strip`, `split` and `int` take apart again,
provided that the names hold no comma, line break or leading blank. -/
namespace SelfChecksumming
open Library

/-! ## Taking text apart -/

theorem split_append {sep : Char} {word : List Char} (h : sep ∉ word) (rest : List Char) :
    split sep (word ++ sep :: rest) = word :: split sep rest := by
  induction word with
  | nil => exact if_pos rfl
  | cons c word ih =>
    obtain ⟨hc, hword⟩ := not_or.mp (List.mem_cons.not.mp h)
    rw [List.cons_append, split, if_neg (Ne.symm hc), ih hword]

theorem split_self {sep : Char} {word : List Char} (h : sep ∉ word) : split sep word = [word] := by
  induction word with
  | nil => rfl
  | cons c word ih =>
    obtain ⟨hc, hword⟩ := not_or.mp (List.mem_cons.not.mp h)
    rw [split, if_neg (Ne.symm hc), ih hword]

theorem readlines_append {line : List Char} (h : '\n' ∉ line) (rest : List Char) :
    readlines (line ++ '\n' :: rest) = (line ++ ['\n']) :: readlines rest := by
  induction line with
  | nil => exact if_pos rfl
  | cons c line ih =>
    obtain ⟨hc, hline⟩ := not_or.mp (List.mem_cons.not.mp h)
    rw [List.cons_append, readlines, if_neg (Ne.symm hc), ih hline]
    rfl

theorem dropWhile_isSpace {s : List Char} (h : ∀ c ∈ s.head?, isSpace c = false) :
    s.dropWhile isSpace = s := by
  cases s with
  | nil => rfl
  | cons c s =>
    have hc : isSpace c = false := h c rfl
    rw [List.dropWhile_cons_of_neg (by simp [hc])]

/-- Nothing is stripped from a text without blanks at its ends. -/
theorem strip_self {s : List Char} (hhead : ∀ c ∈ s.head?, isSpace c = false)
    (hlast : ∀ c ∈ s.getLast?, isSpace c = false) : strip s = s := by
  have hrev : ∀ c ∈ s.reverse.head?, isSpace c = false := by rwa [List.head?_reverse]
  rw [strip, dropWhile_isSpace hhead, dropWhile_isSpace hrev, List.reverse_reverse]

theorem strip_line {s : List Char} (hne : s ≠ []) (hhead : ∀ c ∈ s.head?, isSpace c = false)
    (hlast : ∀ c ∈ s.getLast?, isSpace c = false) : strip (s ++ ['\n']) = s := by
  have hfirst : ∀ c ∈ (s ++ ['\n']).head?, isSpace c = false := by
    rwa [List.head?_append_of_ne_nil s hne]
  have hrev : ∀ c ∈ s.reverse.head?, isSpace c = false := by rwa [List.head?_reverse]
  rw [strip, dropWhile_isSpace hfirst, List.reverse_append]
  show (List.dropWhile isSpace ('\n' :: s.reverse)).reverse = s
  rw [List.dropWhile_cons_of_pos (by decide), dropWhile_isSpace hrev, List.reverse_reverse]

/-! ## Numbers -/

theorem formatD_eq (v : UInt32) : formatD v =
    if v.toInt32.toInt < 0 then '-' :: Nat.toDigits 10 v.toInt32.toInt.natAbs
    else Nat.toDigits 10 v.toInt32.toInt.toNat := rfl

theorem all_isDigit (n : Nat) : (Nat.toDigits 10 n).all Char.isDigit = true :=
  List.all_eq_true.mpr fun _ hc => Nat.isDigit_of_mem_toDigits (by decide) (by decide) hc

/-- What `%d` prints is a sign, at most, and digits. -/
theorem mem_formatD {v : UInt32} {c : Char} (h : c ∈ formatD v) : c = '-' ∨ c.isDigit = true := by
  rw [formatD_eq] at h
  split at h
  · rcases List.mem_cons.mp h with h | h
    · exact .inl h
    · exact .inr (List.all_eq_true.mp (all_isDigit _) c h)
  · exact .inr (List.all_eq_true.mp (all_isDigit _) c h)

theorem formatD_ne_nil (v : UInt32) : formatD v ≠ [] := by
  rw [formatD_eq]
  split
  · exact List.cons_ne_nil _ _
  · exact Nat.toDigits_ne_nil

theorem notMem_formatD {c : Char} (hc : c ≠ '-' ∧ c.isDigit = false) (v : UInt32) :
    c ∉ formatD v := by
  intro h
  rcases mem_formatD h with h | h
  · exact hc.1 h
  · rw [hc.2] at h
    cases h

theorem isSpace_of_mem_formatD {v : UInt32} {c : Char} (h : c ∈ formatD v) :
    isSpace c = false := by
  by_contra hs
  simp only [isSpace, Bool.not_eq_false, Bool.or_eq_true, decide_eq_true_eq, or_assoc] at hs
  rcases hs with rfl | rfl | rfl | rfl | rfl | rfl <;> exact notMem_formatD (by decide) v h

theorem splitSign_digit {c : Char} (h : c.isDigit = true) (s : List Char) :
    splitSign (c :: s) = (1, c :: s) := by
  have hminus : c ≠ '-' := fun he => by rw [he] at h; cases h
  have hplus : c ≠ '+' := fun he => by rw [he] at h; cases h
  simp [splitSign, hminus, hplus]

/-- The sign of a printed number, with what follows it. -/
theorem splitSign_formatD (v : UInt32) (rest : List Char) :
    splitSign (formatD v ++ rest) =
      (if v.toInt32.toInt < 0 then -1 else 1, Nat.toDigits 10 v.toInt32.toInt.natAbs ++ rest) := by
  rw [formatD_eq]
  by_cases hneg : v.toInt32.toInt < 0
  · simp only [if_pos hneg]
    rfl
  · simp only [if_neg hneg]
    have habs : v.toInt32.toInt.toNat = v.toInt32.toInt.natAbs := by omega
    rw [habs]
    obtain ⟨c, cs, hcs⟩ := List.exists_cons_of_ne_nil
      (Nat.toDigits_ne_nil (b := 10) (n := v.toInt32.toInt.natAbs))
    have hdigit := List.all_eq_true.mp (all_isDigit v.toInt32.toInt.natAbs) c
      (hcs ▸ List.mem_cons_self)
    rw [hcs, List.cons_append, splitSign_digit hdigit]

/-- The sign and the digits make up the number. -/
theorem sign_mul_natAbs (i : Int) : (if i < 0 then -1 else 1) * (i.natAbs : Int) = i := by
  split <;> omega

/-- `int` reads back what `%d` prints. -/
theorem int_formatD (v : UInt32) : int (formatD v) = .ok v.toInt32.toInt := by
  have hstrip : strip (formatD v) = formatD v :=
    strip_self (fun c hc => isSpace_of_mem_formatD (List.mem_of_mem_head? hc))
      (fun c hc => isSpace_of_mem_formatD (List.mem_of_mem_getLast? hc))
  have hsign := splitSign_formatD v []
  rw [List.append_nil, List.append_nil] at hsign
  rw [int, hstrip]
  simp only [hsign]
  rw [if_pos ⟨Nat.toDigits_ne_nil, all_isDigit _⟩, Nat.ofDigitChars_ten_toDigits, sign_mul_natAbs]

/-- Below 2^31 the number read back is the number itself. -/
theorem toInt32_of_lt {v : UInt32} (h : v.toNat < 2 ^ 31) : v.toInt32.toInt = v.toNat :=
  BitVec.toInt_eq_toNat_of_lt (x := v.toBitVec) (show 2 * v.toNat < 2 ^ 32 by omega)

/-! ## Lines -/

/-- A name that the guide can hold. -/
structure PlainName (name : List Char) : Prop where
  noComma : ',' ∉ name
  noBreak : '\n' ∉ name
  noBlank : ∀ c ∈ name.head?, isSpace c = false

/-- A line without its line break. -/
def GuideLine.body (line : GuideLine) : List Char :=
  line.functionName.toList ++ ',' :: (formatD line.address ++ ',' :: (formatD line.length ++
    ',' :: formatD line.expectedHash))

theorem GuideLine.print_eq (line : GuideLine) : line.print = line.body ++ ['\n'] := by
  simp [print, body]

theorem GuideLine.split_body {line : GuideLine} (h : PlainName line.functionName.toList) :
    split ',' line.body = [line.functionName.toList, formatD line.address, formatD line.length,
      formatD line.expectedHash] := by
  have hnum : ∀ v : UInt32, ',' ∉ formatD v := notMem_formatD (by decide)
  rw [body, split_append h.noComma, split_append (hnum _), split_append (hnum _),
    split_self (hnum _)]

theorem GuideLine.noBreak_body {line : GuideLine} (h : PlainName line.functionName.toList) :
    '\n' ∉ line.body := by
  have hnum : ∀ v : UInt32, '\n' ∉ formatD v := notMem_formatD (by decide)
  simp only [body, List.mem_append, List.mem_cons, not_or]
  exact ⟨h.noBreak, by decide, hnum _, by decide, hnum _, by decide, hnum _⟩

theorem GuideLine.strip_body {line : GuideLine} (h : PlainName line.functionName.toList) :
    strip (line.body ++ ['\n']) = line.body := by
  refine strip_line ?_ ?_ ?_
  · simp [body]
  · intro c hc
    unfold body at hc
    cases hname : line.functionName.toList with
    | nil =>
      rw [hname] at hc
      cases hc
      decide
    | cons a name =>
      rw [hname] at hc
      exact h.noBlank c (by rw [hname]; exact hc)
  · intro c hc
    have hsplit : line.body = (line.functionName.toList ++ ',' :: (formatD line.address ++ ',' ::
        (formatD line.length ++ [',']))) ++ formatD line.expectedHash := by simp [body]
    rw [hsplit, List.getLast?_append_of_ne_nil _ (formatD_ne_nil _)] at hc
    exact isSpace_of_mem_formatD (List.mem_of_mem_getLast? hc)

/-- The lines that the script works on. -/
theorem content_guideText {guide : List GuideLine}
    (h : ∀ line ∈ guide, PlainName line.functionName.toList) :
    (readlines (guideText guide)).map strip = guide.map GuideLine.body := by
  induction guide with
  | nil => rfl
  | cons line guide ih =>
    have hline := h line List.mem_cons_self
    rw [guideText, List.flatMap_cons, line.print_eq, List.append_assoc, List.singleton_append,
      readlines_append (GuideLine.noBreak_body hline), List.map_cons, List.map_cons,
      GuideLine.strip_body hline]
    exact congrArg _ (ih fun l hl => h l (List.mem_cons_of_mem _ hl))

/-- The patch for a line, once its name is resolved. -/
def GuideLine.patch (line : GuideLine) (info : FuncInfo) (dummy : Bool) : Patch where
  addPlaceholder := line.address.toInt32.toInt
  sizePlaceholder := line.length.toInt32.toInt
  hashPlaceholder := line.expectedHash.toInt32.toInt
  addTarget := info.offset
  sizeTarget := info.size
  dummy := dummy

theorem readLine_body {r2 : Radare} (patches : List Patch) {seeks seeks' : List String}
    {line : GuideLine} {info : FuncInfo} {dummy : Bool}
    (h : PlainName line.functionName.toList)
    (hname : resolve r2 seeks line.functionName = .ok (info, dummy, seeks')) :
    readLine r2 (patches, seeks) line.body =
      .ok (patches ++ [line.patch info dummy], seeks') := by
  unfold readLine
  rw [GuideLine.split_body h]
  simp only [item, List.getElem?_cons_zero, List.getElem?_cons_succ, bind, Except.bind,
    int_formatD, String.ofList_toList, hname]
  rfl

/-- The names of a guide resolved in turn, each after the seeks of those before. -/
def resolveNames (r2 : Radare) : List String → List String → Except Fault (List (FuncInfo × Bool))
  | _, [] => .ok []
  | seeks, name :: names => do
    let (info, dummy, seeks) ← resolve r2 seeks name
    let infos ← resolveNames r2 seeks names
    return (info, dummy) :: infos

/-- The patches for the lines of a guide. -/
def guidePatches (guide : List GuideLine) (infos : List (FuncInfo × Bool)) : List Patch :=
  List.zipWith (fun line info => line.patch info.1 info.2) guide infos

theorem mem_guidePatches {guide : List GuideLine} {infos : List (FuncInfo × Bool)} {p : Patch}
    (h : p ∈ guidePatches guide infos) :
    ∃ line info, line ∈ guide ∧ info ∈ infos ∧ p = line.patch info.1 info.2 := by
  rw [guidePatches, List.mem_iff_getElem] at h
  obtain ⟨n, hn, rfl⟩ := h
  rw [List.length_zipWith, Nat.lt_min] at hn
  exact ⟨guide[n], infos[n], List.getElem_mem hn.1, List.getElem_mem hn.2, List.getElem_zipWith⟩

theorem readLines_body {r2 : Radare} : ∀ (guide : List GuideLine) (infos : List (FuncInfo × Bool))
    (patches : List Patch) (seeks : List String),
    (∀ line ∈ guide, PlainName line.functionName.toList) →
    resolveNames r2 seeks (guide.map GuideLine.functionName) = .ok infos →
    infos.length = guide.length ∧ ∃ seeks',
      (guide.map GuideLine.body).foldlM (readLine r2) (patches, seeks) =
        .ok (patches ++ guidePatches guide infos, seeks') := by
  intro guide
  induction guide with
  | nil =>
    intro infos patches seeks _ h
    cases h
    exact ⟨rfl, seeks, by rw [guidePatches, List.zipWith_nil_left, List.append_nil]; rfl⟩
  | cons line guide ih =>
    intro infos patches seeks hplain h
    obtain ⟨⟨info, dummy, seeks₁⟩, hname, h⟩ := bind_eq_ok.mp h
    obtain ⟨rest, hrest, h⟩ := bind_eq_ok.mp h
    cases h
    have hline := readLine_body patches (hplain line List.mem_cons_self) hname
    obtain ⟨hlen, seeks', hrun⟩ := ih rest (patches ++ [line.patch info dummy]) seeks₁
      (fun l hl => hplain l (List.mem_cons_of_mem _ hl)) hrest
    refine ⟨by rw [List.length_cons, List.length_cons, hlen], seeks', ?_⟩
    rw [List.map_cons, List.foldlM_cons, hline]
    refine hrun.trans ?_
    rw [List.append_assoc, List.singleton_append]
    rfl

/-- The patches that the script makes of a guide that the pass wrote. -/
theorem readGuide_guideText {r2 : Radare} {guide : List GuideLine}
    {infos : List (FuncInfo × Bool)}
    (hplain : ∀ line ∈ guide, PlainName line.functionName.toList)
    (hresolve : resolveNames r2 [] (guide.map GuideLine.functionName) = .ok infos) :
    infos.length = guide.length ∧
      readGuide r2 (guideText guide) = .ok (guidePatches guide infos) := by
  obtain ⟨hlen, seeks, hrun⟩ := readLines_body guide infos [] [] hplain hresolve
  refine ⟨hlen, ?_⟩
  have hcount : (guidePatches guide infos).length = (guide.map GuideLine.body).length := by
    rw [guidePatches, List.length_zipWith, List.length_map, hlen, Nat.min_self]
  rw [readGuide, content_guideText hplain]
  refine bind_eq_ok.mpr ⟨(guidePatches guide infos, seeks), hrun, ?_⟩
  rw [if_neg (not_not.mpr hcount)]

end SelfChecksumming
