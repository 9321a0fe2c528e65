import SelfChecksumming.Library.Loop
import SelfChecksumming.Patcher.Guide

/-! # Recording and replaying input

`libintercept` and `libminm` both stand in for `getchar`. The one writes what the real
`getchar` returned to a file named after the thread, the other one reads it back. Neither
forgets a stream that it has closed: the pointer stays what it was. -/
namespace SelfChecksumming
open Library

/-- A static `FILE *`. -/
inductive Stream where
  | null
  | reading (rest : List Char)
  | closed

/-- What the files hold, and whether `fopen` succeeds on them. -/
structure Disk where
  files : String → Option (List Char)
  opens : String → Bool

def Disk.write (disk : Disk) (name : String) (content : List Char) : Disk :=
  { disk with files := Function.update disk.files name (some content) }

def interceptName (threadName : String) : String := "intercept_" ++ threadName

/-! ## libintercept -/

structure Recorder where
  disk : Disk
  f : Stream := .null

/-- `getchar`, when the real one returns `result`. The first call opens the file with "w",
the later ones with "a". -/
def Recorder.getchar (threadName : String) (s : Recorder) (result : Int32) :
    Except Fault (Int32 × Recorder) :=
  let fileName := interceptName threadName
  if s.disk.opens fileName then
    let content :=
      match s.f with
      | .null => []
      | _ => (s.disk.files fileName).getD []
    .ok (result, {
      disk := s.disk.write fileName (content ++ (formatD result.toUInt32 ++ [',']))
      f := .closed })
  else .error (.exit ("Error opening file " ++ fileName ++ "!\n"))

/-- A process in which the real `getchar` returns `results` in turn. -/
def recordAll (threadName : String) (disk : Disk) (results : List Int32) :
    Except Fault Recorder :=
  results.foldlM (fun s result => (s.getchar threadName result).map Prod.snd) { disk }

/-! ## libminm -/

inductive Scanned where
  | eof
  | values (result : Option Int32) (rest : List Char)

/-- A number is read by `strtol`, which saturates at 64 bits. -/
def strtol (n : Int) : Int :=
  if n < Int64.minValue.toInt then Int64.minValue.toInt
  else if Int64.maxValue.toInt < n then Int64.maxValue.toInt
  else n

theorem strtol_toInt (v : Int32) : strtol v.toInt = v.toInt := by
  have hmin : Int64.minValue.toInt = -9223372036854775808 := rfl
  have hmax : Int64.maxValue.toInt = 9223372036854775807 := rfl
  have hle := v.le_toInt
  have hlt := v.toInt_lt
  rw [strtol, if_neg (by omega), if_neg (by omega)]

/-- `fscanf(f, "%d%c", &result, &ch)` at the rest of a stream; the result is unset when there
is no number. What `strtol` gives is cut to an `int`. -/
def fscanf (rest : List Char) : Scanned :=
  match rest.dropWhile isSpace with
  | [] => .eof
  | text =>
    let signed := splitSign text
    let digits := signed.2.takeWhile Char.isDigit
    if digits = [] then .values none signed.2
    else
      .values (some (.ofInt (strtol (signed.1 * (Nat.ofDigitChars 10 digits 0 : Nat)))))
        ((signed.2.dropWhile Char.isDigit).drop 1)

/-- What a call returns: a number from the file, what the real `getchar` returned, or
nothing that was ever set. -/
inductive Returned where
  | fromFile (v : Int32)
  | real (v : Int32)
  | nothing
  deriving DecidableEq, Repr

/-- The static variables, and the number of calls of the real `getchar`. -/
structure Replayer where
  triedToAccessFile : Bool := false
  f : Stream := .null
  calls : Nat := 0

/-- The first `if`. -/
def Replayer.tryToAccessFile (threadName : String) (disk : Disk) (s : Replayer) :
    Except Fault Replayer :=
  match s.f, s.triedToAccessFile with
  | .null, false =>
    let s := { s with triedToAccessFile := true }
    match disk.files (interceptName threadName) with
    | none => .ok s
    | some content =>
      if disk.opens (interceptName threadName) then .ok { s with f := .reading content }
      else .error (.exit "Error opening file!\n")
  | _, _ => .ok s

/-- `getchar`, where `newGetchar` is the sequence that the real one returns. At the end of
the file the stream is closed, and no value is returned. -/
def Replayer.getchar (threadName : String) (disk : Disk) (newGetchar : Nat → Int32)
    (s : Replayer) : Except Fault (Returned × Replayer) := do
  let s ← s.tryToAccessFile threadName disk
  match s.f with
  | .null => .ok (.real (newGetchar s.calls), { s with calls := s.calls + 1 })
  | .reading rest =>
    match fscanf rest with
    | .eof => .ok (.nothing, { s with f := .closed })
    | .values result rest =>
      .ok ((result.map .fromFile).getD .nothing, { s with f := .reading rest })
  | .closed => .error (.undefined "fscanf on a closed stream")

/-- The results of `m` calls. -/
def Replayer.replay (threadName : String) (disk : Disk) (newGetchar : Nat → Int32) :
    Nat → Replayer → Except Fault (List Returned)
  | 0, _ => .ok []
  | m + 1, s => do
    let (result, s) ← s.getchar threadName disk newGetchar
    let results ← replay threadName disk newGetchar m s
    return result :: results

example : fscanf "-1,97,".toList = .values (some (-1)) "97,".toList := rfl

/-! ## What is recorded -/

/-- The text of a recording. -/
def recording (results : List Int32) : List Char :=
  results.flatMap fun result => formatD result.toUInt32 ++ [',']

/-- A recording that was made replaces whatever the file held. -/
theorem recordAll_ok {threadName : String} {disk : Disk} {results : List Int32} {s : Recorder}
    (h : recordAll threadName disk results = .ok s) :
    results = [] ∧ s.disk = disk ∨
      results ≠ [] ∧ s.disk.files (interceptName threadName) = some (recording results) ∧
        s.disk.opens (interceptName threadName) = true := by
  have hinv := foldlM_invariant (fun done (s : Recorder) =>
    done = [] ∧ s = { disk } ∨ done ≠ [] ∧ s.f = .closed ∧
      s.disk.files (interceptName threadName) = some (recording done) ∧
      s.disk.opens (interceptName threadName) = true)
    (fun done v b b' hb hv => ?_) results [] (.inl ⟨rfl, rfl⟩) h
  · rcases hinv with ⟨hnil, rfl⟩ | ⟨hne, -, hfile, hopens⟩
    · exact .inl ⟨hnil, rfl⟩
    · exact .inr ⟨hne, hfile, hopens⟩
  · cases hopens : b.disk.opens (interceptName threadName) with
    | false =>
      simp [Recorder.getchar, hopens, Except.map] at hv
    | true =>
      simp only [Recorder.getchar, hopens, if_true, Except.map, Except.ok.injEq] at hv
      subst hv
      refine .inr ⟨by simp, rfl, ?_, hopens⟩
      rcases hb with ⟨rfl, rfl⟩ | ⟨-, hf, hfile, -⟩
      · simp [Disk.write, recording]
      · simp [Disk.write, recording, hf, hfile]

/-! ## What is read back -/

/-- `fscanf` takes the number and its separator, and nothing else. -/
theorem fscanf_formatD (v : Int32) (rest : List Char) :
    fscanf (formatD v.toUInt32 ++ ',' :: rest) = .values (some v) rest := by
  have hblank : (formatD v.toUInt32 ++ ',' :: rest).dropWhile isSpace =
      formatD v.toUInt32 ++ ',' :: rest := by
    refine dropWhile_isSpace fun c hc => ?_
    rw [List.head?_append_of_ne_nil _ (formatD_ne_nil _)] at hc
    exact isSpace_of_mem_formatD (List.mem_of_mem_head? hc)
  have hdigits : ∀ c ∈ Nat.toDigits 10 v.toInt.natAbs, c.isDigit = true :=
    List.all_eq_true.mp (all_isDigit _)
  have htake : (Nat.toDigits 10 v.toInt.natAbs ++ ',' :: rest).takeWhile Char.isDigit =
      Nat.toDigits 10 v.toInt.natAbs := by
    rw [List.takeWhile_append_of_pos hdigits, List.takeWhile_cons_of_neg (by decide),
      List.append_nil]
  have hdrop : (Nat.toDigits 10 v.toInt.natAbs ++ ',' :: rest).dropWhile Char.isDigit =
      ',' :: rest := by
    rw [List.dropWhile_append_of_pos hdigits, List.dropWhile_cons_of_neg (by decide)]
  have hne : formatD v.toUInt32 ++ ',' :: rest ≠ [] := by simp
  rw [fscanf, hblank]
  split
  · exact absurd ‹_› hne
  · rw [splitSign_formatD, Int32.toInt32_toUInt32]
    simp only [htake, hdrop, Nat.toDigits_ne_nil, if_false, Nat.ofDigitChars_ten_toDigits,
      sign_mul_natAbs, strtol_toInt, Int32.ofInt_toInt, List.drop_one, List.tail_cons]

section
variable {threadName : String} {disk : Disk} {newGetchar : Nat → Int32}

theorem getchar_recorded (v : Int32) (results : List Int32) (calls : Nat) :
    Replayer.getchar threadName disk newGetchar ⟨true, .reading (recording (v :: results)), calls⟩ =
      .ok (.fromFile v, ⟨true, .reading (recording results), calls⟩) := by
  have hcons : recording (v :: results) = formatD v.toUInt32 ++ ',' :: recording results := by
    simp [recording]
  simp only [Replayer.getchar, Replayer.tryToAccessFile, hcons, bind, Except.bind, fscanf_formatD]
  rfl

/-- At the end of the recording nothing is returned. -/
theorem getchar_exhausted (calls : Nat) :
    Replayer.getchar threadName disk newGetchar ⟨true, .reading (recording []), calls⟩ =
      .ok (.nothing, ⟨true, .closed, calls⟩) := rfl

/-- The first call, and the others. -/
theorem replay_succ_ok {m : Nat} {s : Replayer} {os : List Returned} :
    Replayer.replay threadName disk newGetchar (m + 1) s = .ok os ↔
      ∃ o s' rest, s.getchar threadName disk newGetchar = .ok (o, s') ∧
        Replayer.replay threadName disk newGetchar m s' = .ok rest ∧ os = o :: rest := by
  constructor
  · intro h
    obtain ⟨⟨o, s'⟩, hfirst, h⟩ := bind_eq_ok.mp h
    obtain ⟨rest, hrest, h⟩ := bind_eq_ok.mp h
    exact ⟨o, s', rest, hfirst, hrest, (Except.ok.inj h).symm⟩
  · intro h
    obtain ⟨o, s', rest, hfirst, hrest, rfl⟩ := h
    exact bind_eq_ok.mpr ⟨(o, s'), hfirst, bind_eq_ok.mpr ⟨rest, hrest, rfl⟩⟩

theorem replay_recorded : ∀ {m : Nat} {results : List Int32} (calls : Nat), m ≤ results.length →
    Replayer.replay threadName disk newGetchar m ⟨true, .reading (recording results), calls⟩ =
      .ok ((results.take m).map .fromFile) := by
  intro m
  induction m with
  | zero => exact fun _ _ => rfl
  | succ m ih =>
    intro results calls hm
    obtain ⟨v, results, rfl⟩ :=
      List.exists_cons_of_ne_nil (List.ne_nil_of_length_pos (Nat.lt_of_lt_of_le m.succ_pos hm))
    exact replay_succ_ok.mpr
      ⟨_, _, _, getchar_recorded v results calls, ih calls (Nat.le_of_succ_le_succ hm), rfl⟩

/-- One call too many returns nothing, whatever the ones behind it do. -/
theorem replay_exhausted : ∀ {results : List Int32} {m : Nat} (calls : Nat) {os : List Returned},
    results.length < m →
    Replayer.replay threadName disk newGetchar m ⟨true, .reading (recording results), calls⟩ =
      .ok os → os[results.length]? = some .nothing := by
  intro results
  induction results with
  | nil =>
    intro m calls os hm h
    obtain ⟨m, rfl⟩ := Nat.exists_eq_add_one.mpr hm
    obtain ⟨o, s', rest, hfirst, -, rfl⟩ := replay_succ_ok.mp h
    rw [getchar_exhausted] at hfirst
    cases hfirst
    rfl
  | cons v results ih =>
    intro m calls os hm h
    obtain ⟨m, rfl⟩ := Nat.exists_eq_add_one.mpr (Nat.lt_of_le_of_lt (Nat.zero_le _) hm)
    obtain ⟨o, s', rest, hfirst, hrest, rfl⟩ := replay_succ_ok.mp h
    rw [getchar_recorded] at hfirst
    cases hfirst
    exact ih calls (Nat.lt_of_succ_lt_succ hm) hrest

theorem replay_real : ∀ (m calls : Nat),
    Replayer.replay threadName disk newGetchar m ⟨true, .null, calls⟩ =
      .ok ((List.range m).map fun i => .real (newGetchar (calls + i))) := by
  intro m
  induction m with
  | zero => exact fun _ => rfl
  | succ m ih =>
    intro calls
    refine replay_succ_ok.mpr
      ⟨.real (newGetchar calls), ⟨true, .null, calls + 1⟩, _, rfl, ih (calls + 1), ?_⟩
    rw [List.range_succ_eq_map]
    simp [Function.comp_def, Nat.add_assoc, Nat.add_comm 1]

/-- The first call looks for the file; after that it is as if it had been open before. -/
theorem replay_start {s : Replayer} (h : Replayer.tryToAccessFile threadName disk {} = .ok s)
    (hs : s.triedToAccessFile = true) (m : Nat) :
    Replayer.replay threadName disk newGetchar (m + 1) {} =
      Replayer.replay threadName disk newGetchar (m + 1) s := by
  have hagain : s.tryToAccessFile threadName disk = .ok s := by
    obtain ⟨tried, f, calls⟩ := s
    obtain rfl : tried = true := hs
    cases f <;> rfl
  simp only [Replayer.replay, Replayer.getchar, h, hagain]

/-- The recording results first, then those of the real `getchar`. -/
def replayed (results : List Int32) (newGetchar : Nat → Int32) (m : Nat) : List Returned :=
  (results.take m).map .fromFile ++
    (List.range (m - results.length)).map fun i => .real (newGetchar i)

theorem replay_file {content : List Char}
    (hfile : disk.files (interceptName threadName) = some content)
    (hopens : disk.opens (interceptName threadName) = true) (m : Nat) :
    Replayer.replay threadName disk newGetchar (m + 1) {} =
      Replayer.replay threadName disk newGetchar (m + 1) ⟨true, .reading content, 0⟩ := by
  refine replay_start ?_ rfl m
  simp [Replayer.tryToAccessFile, hfile, hopens]

theorem replay_noFile (hfile : disk.files (interceptName threadName) = none) (m : Nat) :
    Replayer.replay threadName disk newGetchar (m + 1) {} =
      Replayer.replay threadName disk newGetchar (m + 1) ⟨true, .null, 0⟩ := by
  refine replay_start ?_ rfl m
  simp [Replayer.tryToAccessFile, hfile]

/-- With a file there, the first call does not get to the real `getchar`. -/
theorem replay_head {content : List Char}
    (hfile : disk.files (interceptName threadName) = some content) {m : Nat}
    {os : List Returned}
    (h : Replayer.replay threadName disk newGetchar (m + 1) {} = .ok os) (v : Int32) :
    os.head? ≠ some (.real v) := by
  obtain ⟨o, s, rest, hfirst, -, rfl⟩ := replay_succ_ok.mp h
  obtain ⟨_, hs, hfirst⟩ := bind_eq_ok.mp hfirst
  cases hopens : disk.opens (interceptName threadName) with
  | false =>
    simp [Replayer.tryToAccessFile, hfile, hopens] at hs
  | true =>
    simp only [Replayer.tryToAccessFile, hfile, hopens, if_true] at hs
    cases hs
    simp only at hfirst
    cases hscan : fscanf content with
    | eof =>
      rw [hscan] at hfirst
      cases hfirst
      exact nofun
    | values result rest =>
      rw [hscan] at hfirst
      cases hfirst
      cases result <;> exact nofun

end

/-- A replay behaves as it should for `m` calls when there are no more than were recorded, or
when nothing was and there is no file from before: the call after the last number returns
nothing, and the next one reads the stream that this one closed. -/
theorem replay_iff {threadName : String} {disk : Disk} {results : List Int32} {s : Recorder}
    (h : recordAll threadName disk results = .ok s) (newGetchar : Nat → Int32) (m : Nat) :
    Replayer.replay threadName s.disk newGetchar m {} = .ok (replayed results newGetchar m) ↔
      m ≤ results.length ∨ results = [] ∧ disk.files (interceptName threadName) = none := by
  cases m with
  | zero => simp [Replayer.replay, replayed]
  | succ m =>
    rcases recordAll_ok h with ⟨rfl, hdisk⟩ | ⟨hne, hfile, hopens⟩
    · rw [hdisk]
      have hnone : ¬ m + 1 ≤ ([] : List Int32).length := by simp
      rw [or_iff_right hnone, and_iff_right rfl]
      constructor
      · intro hrun
        by_contra hsome
        obtain ⟨content, hcontent⟩ := Option.ne_none_iff_exists'.mp hsome
        refine replay_head hcontent hrun (newGetchar 0) ?_
        simp [replayed, List.range_succ_eq_map]
      · intro hnofile
        rw [replay_noFile hnofile, replay_real]
        simp [replayed]
    · rw [replay_file hfile hopens]
      simp only [hne, false_and, or_false]
      constructor
      · intro hrun
        by_contra hmore
        have hlast := replay_exhausted 0 (Nat.not_le.mp hmore) hrun
        have hlen : results.length < m + 1 := Nat.not_le.mp hmore
        have hpos : 0 < m + 1 - results.length := by omega
        rw [replayed, List.take_of_length_le (by omega),
          List.getElem?_append_right (by simp), List.length_map, Nat.sub_self] at hlast
        simp [List.getElem?_range hpos] at hlast
      · intro hm
        have hzero : m + 1 - results.length = 0 := by omega
        rw [replay_recorded 0 hm, replayed, hzero, List.range_zero, List.map_nil, List.append_nil]

/-- Nothing on disk, and every file can be opened. -/
def emptyDisk : Disk := ⟨fun _ => none, fun _ => true⟩

theorem replay_iff_sample : ∃ s, recordAll "tetris" emptyDisk [106, -1] = .ok s ∧
    Replayer.replay "tetris" s.disk (fun _ => 113) 2 {} = .ok [.fromFile 106, .fromFile (-1)] := by
  obtain ⟨s, hs⟩ : ∃ s, recordAll "tetris" emptyDisk [106, -1] = .ok s := ⟨_, rfl⟩
  exact ⟨s, hs, (replay_iff hs (fun _ => 113) 2).mpr (.inl (by decide))⟩

/-- The third call returns nothing, and the fourth reads a closed stream. -/
theorem replay_past_end : ∃ s, recordAll "tetris" emptyDisk [106, -1] = .ok s ∧
    replayed [106, -1] (fun _ => 113) 3 = [.fromFile 106, .fromFile (-1), .real 113] ∧
    Replayer.replay "tetris" s.disk (fun _ => 113) 3 {} =
      .ok [.fromFile 106, .fromFile (-1), .nothing] ∧
    Replayer.replay "tetris" s.disk (fun _ => 113) 4 {} =
      .error (.undefined "fscanf on a closed stream") :=
  ⟨_, rfl, rfl, rfl, rfl⟩

end SelfChecksumming
