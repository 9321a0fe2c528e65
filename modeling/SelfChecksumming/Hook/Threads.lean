import SelfChecksumming.Hook.Replay

/-! # Several threads

The static variables belong to the process, and the names of the files come from those of
its threads, which is all that tells threads apart here. A call is atomic, and the threads
take turns in any order. -/
namespace SelfChecksumming
open Library

/-! ## Recording -/

/-- A process whose threads call `getchar` in turn, with what the real one returned. -/
def recordCalls (disk : Disk) (calls : List (String × Int32)) : Except Fault Recorder :=
  calls.foldlM (fun s call => (s.getchar call.1 call.2).map Prod.snd) { disk }

/-- What the real `getchar` returned to the threads of this name. -/
def valuesOf (threadName : String) (calls : List (String × Int32)) : List Int32 :=
  (calls.filter fun call => call.1 = threadName).map Prod.snd

/-- Whoever calls first starts a new file, the others go on with theirs. -/
def recordedFile (disk : Disk) (calls : List (String × Int32)) (threadName : String) :
    Option (List Char) :=
  if valuesOf threadName calls = [] then disk.files (interceptName threadName)
  else
    let before :=
      if calls.head?.map Prod.fst = some threadName then []
      else (disk.files (interceptName threadName)).getD []
    some (before ++ recording (valuesOf threadName calls))

theorem interceptName_inj {t t' : String} (h : interceptName t = interceptName t') : t = t' := by
  have hlist := congrArg String.toList h
  simp only [interceptName, String.toList_append] at hlist
  exact String.ext (List.append_cancel_left hlist)

theorem recordedFile_other {disk : Disk} {calls : List (String × Int32)} {t t' : String}
    (h : t ≠ t') (v : Int32) :
    recordedFile disk (calls ++ [(t', v)]) t = recordedFile disk calls t := by
  have hvalues : valuesOf t (calls ++ [(t', v)]) = valuesOf t calls := by
    simp [valuesOf, Ne.symm h]
  rw [recordedFile, recordedFile, hvalues]
  cases calls with
  | nil => rfl
  | cons call calls => rfl

/-- A call adds a number to the file of its thread; the first one of all empties it before. -/
theorem recordedFile_own (disk : Disk) (calls : List (String × Int32)) (t : String) (v : Int32) :
    recordedFile disk (calls ++ [(t, v)]) t =
      some ((if calls = [] then [] else (recordedFile disk calls t).getD []) ++
        (formatD v.toUInt32 ++ [','])) := by
  have hvalues : valuesOf t (calls ++ [(t, v)]) = valuesOf t calls ++ [v] := by
    simp [valuesOf]
  have hrecording : recording (valuesOf t calls ++ [v]) =
      recording (valuesOf t calls) ++ (formatD v.toUInt32 ++ [',']) := by
    simp [recording]
  rw [recordedFile, hvalues, if_neg (by simp), hrecording]
  cases calls with
  | nil => simp [valuesOf, recording]
  | cons call calls =>
    simp only [List.cons_append, List.head?_cons, Option.map_some, Option.some.injEq, reduceCtorEq,
      if_false]
    by_cases hnone : valuesOf t (call :: calls) = []
    · -- the first caller is another thread
      have hfirst : call.1 ≠ t := by
        intro he
        simp [valuesOf, he] at hnone
      rw [recordedFile, if_pos hnone, if_neg hfirst, hnone]
      rfl
    · rw [recordedFile, if_neg hnone]
      simp

theorem recordCalls_ok {disk : Disk} {calls : List (String × Int32)} {s : Recorder}
    (h : recordCalls disk calls = .ok s) :
    (∀ t, s.disk.files (interceptName t) = recordedFile disk calls t) ∧
      ∀ call ∈ calls, s.disk.opens (interceptName call.1) = true := by
  have hinv := foldlM_invariant (fun done (s : Recorder) =>
    (done = [] ∧ s.f = .null ∨ done ≠ [] ∧ s.f = .closed) ∧ s.disk.opens = disk.opens ∧
      (∀ t, s.disk.files (interceptName t) = recordedFile disk done t) ∧
      ∀ call ∈ done, disk.opens (interceptName call.1) = true)
    (fun done call b b' hb hcall => ?_) calls []
    ⟨.inl ⟨rfl, rfl⟩, rfl, fun t => rfl, fun call hcall => absurd hcall List.not_mem_nil⟩ h
  · obtain ⟨-, hopens, hfiles, hcalls⟩ := hinv
    exact ⟨hfiles, fun call hcall => by rw [hopens]; exact hcalls call hcall⟩
  · obtain ⟨hf, hopens, hfiles, hcalls⟩ := hb
    obtain ⟨t, v⟩ := call
    cases ho : b.disk.opens (interceptName t) with
    | false => simp [Recorder.getchar, ho, Except.map] at hcall
    | true =>
      simp only [Recorder.getchar, ho, if_true, Except.map, Except.ok.injEq] at hcall
      subst hcall
      refine ⟨.inr ⟨by simp, rfl⟩, hopens, fun t' => ?_, fun call hcall => ?_⟩
      · by_cases ht : t' = t
        · subst ht
          simp only [recordedFile_own, Disk.write, Function.update_self, hfiles]
          rcases hf with ⟨rfl, hf⟩ | ⟨hne, hf⟩
          · rw [hf, if_pos rfl]
          · rw [hf, if_neg hne]
        · have hname : interceptName t' ≠ interceptName t := fun he => ht (interceptName_inj he)
          simp only [recordedFile_other ht, Disk.write, Function.update_of_ne hname, hfiles]
      · rcases List.mem_append.mp hcall with hcall | hcall
        · exact hcalls call hcall
        · obtain rfl := List.mem_singleton.mp hcall
          rw [← hopens]
          exact ho

/-! ## Replaying -/

/-- The results of calls by threads of these names. -/
def Replayer.replayCalls (disk : Disk) (newGetchar : Nat → Int32) :
    List String → Replayer → Except Fault (List Returned)
  | [], _ => .ok []
  | threadName :: schedule, s => do
    let (result, s) ← s.getchar threadName disk newGetchar
    let results ← replayCalls disk newGetchar schedule s
    return result :: results

/-- What was returned to the threads of this name. -/
def returnedTo (threadName : String) (schedule : List String) (results : List Returned) :
    List Returned :=
  ((schedule.zip results).filter fun call => call.1 = threadName).map Prod.snd

section

variable {disk : Disk} {newGetchar : Nat → Int32}

theorem getchar_tried {s : Replayer} (hs : s.triedToAccessFile = true) (t t' : String) :
    s.getchar t disk newGetchar = s.getchar t' disk newGetchar := by
  obtain ⟨tried, f, calls⟩ := s
  obtain rfl : tried = true := hs
  cases f <;> rfl

theorem tryToAccessFile_tried {s s' : Replayer} {t : String}
    (h : s.tryToAccessFile t disk = .ok s') (hs : s.triedToAccessFile = true ∨ s.f = .null) :
    s'.triedToAccessFile = true := by
  unfold Replayer.tryToAccessFile at h
  split at h
  · split at h
    · cases h
      rfl
    · split at h
      · cases h
        rfl
      · cases h
  · rename_i hno
    cases h
    rcases hs with hs | hs
    · exact hs
    · by_contra htried
      exact hno hs (Bool.not_eq_true _ ▸ htried)

theorem getchar_tries {s s' : Replayer} {t : String} {o : Returned}
    (h : s.getchar t disk newGetchar = .ok (o, s')) (hs : s.triedToAccessFile = true ∨ s.f = .null) :
    s'.triedToAccessFile = true := by
  obtain ⟨s₁, hs₁, h⟩ := bind_eq_ok.mp h
  have htried := tryToAccessFile_tried hs₁ hs
  split at h
  · cases h
    exact htried
  · split at h
    · cases h
      exact htried
    · cases h
      exact htried
  · cases h

/-- Once a thread has looked for its file, it does not matter any more which ones call. -/
theorem replayCalls_tried (t : String) : ∀ (schedule : List String) (s : Replayer),
    s.triedToAccessFile = true → s.replayCalls disk newGetchar schedule =
      s.replay t disk newGetchar schedule.length := by
  intro schedule
  induction schedule with
  | nil => exact fun s _ => rfl
  | cons t' schedule ih =>
    intro s hs
    rw [List.length_cons, Replayer.replayCalls, Replayer.replay, getchar_tried hs t' t]
    cases hcall : s.getchar t disk newGetchar with
    | error fault => rfl
    | ok result =>
      obtain ⟨o, s'⟩ := result
      simp only [bind, Except.bind]
      rw [ih s' (getchar_tries hcall (.inl hs))]

theorem replayCalls_first (t : String) (schedule : List String) :
    Replayer.replayCalls disk newGetchar (t :: schedule) {} =
      Replayer.replay t disk newGetchar (schedule.length + 1) {} := by
  rw [Replayer.replayCalls, Replayer.replay]
  cases hcall : Replayer.getchar t disk newGetchar {} with
  | error fault => rfl
  | ok result =>
    obtain ⟨o, s'⟩ := result
    simp only [bind, Except.bind]
    rw [replayCalls_tried t schedule s' (getchar_tries hcall (.inr rfl))]

end

/-! ## Faithful replays -/

/-- Under every thread name is returned what was returned under it when the calls were
recorded. Threads of one name may swap their results. -/
def Faithful (disk : Disk) (newGetchar : Nat → Int32) (calls : List (String × Int32))
    (schedule : List String) : Prop :=
  ∃ results, Replayer.replayCalls disk newGetchar schedule {} = .ok results ∧
    ∀ t, returnedTo t schedule results = (valuesOf t calls).map .fromFile

theorem replay_length {threadName : String} {disk : Disk} {newGetchar : Nat → Int32} :
    ∀ {m : Nat} {s : Replayer} {results : List Returned},
      s.replay threadName disk newGetchar m = .ok results → results.length = m := by
  intro m
  induction m with
  | zero =>
    intro s results h
    cases h
    rfl
  | succ m ih =>
    intro s results h
    obtain ⟨o, s', rest, -, hrest, rfl⟩ := replay_succ_ok.mp h
    rw [List.length_cons, ih hrest]

theorem valuesOf_length_eq {t : String} {calls : List (String × Int32)} :
    (valuesOf t calls).length = calls.length ↔ ∀ call ∈ calls, call.1 = t := by
  rw [valuesOf, List.length_map, List.length_filter_eq_length_iff]
  simp

/-- A call that returned nothing is one of its thread's. -/
theorem nothing_of_getElem? {schedule : List String} {results : List Returned} {i : Nat}
    (hlen : results.length = schedule.length) (h : results[i]? = some .nothing) :
    ∃ t, .nothing ∈ returnedTo t schedule results := by
  obtain ⟨hi, hnothing⟩ := List.getElem?_eq_some_iff.mp h
  have hi' : i < schedule.length := hlen ▸ hi
  refine ⟨schedule[i], List.mem_map.mpr ⟨(schedule[i], results[i]), ?_, hnothing⟩⟩
  refine List.mem_filter.mpr ⟨?_, decide_eq_true rfl⟩
  refine List.mem_of_getElem? (i := i) ?_
  rw [List.getElem?_zip_eq_some]
  exact ⟨List.getElem?_eq_getElem hi', List.getElem?_eq_getElem hi⟩

theorem returnedTo_eq {t : String} {schedule : List String} {results : List Returned}
    (hlen : results.length = schedule.length) (h : ∀ t' ∈ schedule, t' = t) (t' : String) :
    returnedTo t' schedule results = if t' = t then results else [] := by
  have hname : ∀ call ∈ schedule.zip results, call.1 = t := fun call hcall =>
    h _ (List.of_mem_zip hcall).1
  rw [returnedTo]
  split
  · rename_i ht
    rw [List.filter_eq_self.mpr fun call hcall => decide_eq_true ((hname call hcall).trans ht.symm),
      List.map_snd_zip hlen.le]
  · rename_i ht
    have hnone : (schedule.zip results).filter (fun call => call.1 = t') = [] :=
      List.filter_eq_nil_iff.mpr fun call hcall => by
        rw [hname call hcall, decide_eq_true_iff]
        exact Ne.symm ht
    rw [hnone, List.map_nil]

/-- Whatever the order in which the threads call again, under each name as often as before:
what was returned under a name is returned under it if and only if all of them have the same
name, since only the file of the first one is ever read. -/
theorem replay_threads_iff {disk : Disk} {calls : List (String × Int32)} {s : Recorder}
    (hclean : ∀ call ∈ calls, disk.files (interceptName call.1) = none)
    (h : recordCalls disk calls = .ok s) (newGetchar : Nat → Int32) {schedule : List String}
    (hperm : schedule.Perm (calls.map Prod.fst)) :
    Faithful s.disk newGetchar calls schedule ↔
      ∀ call ∈ calls, ∀ call' ∈ calls, call.1 = call'.1 := by
  obtain ⟨hfiles, hopens⟩ := recordCalls_ok h
  have hlen : schedule.length = calls.length := by rw [hperm.length_eq, List.length_map]
  cases schedule with
  | nil =>
    obtain rfl : calls = [] := List.eq_nil_of_length_eq_zero hlen.symm
    exact iff_of_true ⟨[], rfl, fun t => rfl⟩ fun call hcall => absurd hcall List.not_mem_nil
  | cons t schedule =>
    obtain ⟨first, hfirst, rfl⟩ := List.mem_map.mp (hperm.mem_iff.mp List.mem_cons_self)
    have hfile : s.disk.files (interceptName first.1) =
        some (recording (valuesOf first.1 calls)) := by
      have hsome : valuesOf first.1 calls ≠ [] := List.ne_nil_of_mem
        (List.mem_map_of_mem (List.mem_filter.mpr ⟨hfirst, decide_eq_true rfl⟩))
      rw [hfiles, recordedFile, if_neg hsome, hclean first hfirst]
      simp
    rw [Faithful, replayCalls_first, replay_file hfile (hopens first hfirst)]
    constructor
    · rintro ⟨results, hok, hsame⟩
      suffices hall : ∀ call ∈ calls, call.1 = first.1 from fun call hcall call' hcall' =>
        (hall call hcall).trans (hall call' hcall').symm
      refine valuesOf_length_eq.mp (le_antisymm ?_ ?_)
      · rw [valuesOf, List.length_map]
        exact List.length_filter_le _ _
      · -- otherwise the file comes to its end
        by_contra hfew
        rw [← hlen, List.length_cons] at hfew
        obtain ⟨t, ht⟩ : ∃ t, .nothing ∈ returnedTo t (first.1 :: schedule) results :=
          nothing_of_getElem? (replay_length hok) (replay_exhausted 0 (Nat.not_le.mp hfew) hok)
        rw [hsame, List.mem_map] at ht
        obtain ⟨v, -, hv⟩ := ht
        cases hv
    · intro hall
      have hnames : ∀ call ∈ calls, call.1 = first.1 := fun call hcall => hall call hcall first hfirst
      have hcount : (valuesOf first.1 calls).length = schedule.length + 1 := by
        rw [valuesOf_length_eq.mpr hnames, ← hlen, List.length_cons]
      have hschedule : ∀ t ∈ first.1 :: schedule, t = first.1 := by
        intro t ht
        obtain ⟨call, hcall, rfl⟩ := List.mem_map.mp (hperm.mem_iff.mp ht)
        exact hnames call hcall
      refine ⟨_, replay_recorded 0 hcount.ge, fun t => ?_⟩
      rw [List.take_of_length_le hcount.le,
        returnedTo_eq (by rw [List.length_map, hcount, List.length_cons]) hschedule]
      split
      · rename_i ht
        rw [ht]
      · rename_i ht
        have hnone : valuesOf t calls = [] := by
          rw [valuesOf, List.map_eq_nil_iff, List.filter_eq_nil_iff]
          intro call hcall
          rw [hnames call hcall, decide_eq_true_iff]
          exact Ne.symm ht
        rw [hnone, List.map_nil]

/-- Two threads of different names: the second one is served from the file of the first. -/
theorem replay_threads_iff_sample : ∃ s,
    recordCalls emptyDisk [("tetris", 106), ("music", -1), ("tetris", 107)] = .ok s ∧
    ¬ Faithful s.disk (fun _ => 113) [("tetris", 106), ("music", -1), ("tetris", 107)]
      ["tetris", "tetris", "music"] := by
  obtain ⟨s, hs⟩ : ∃ s, recordCalls emptyDisk [("tetris", 106), ("music", -1), ("tetris", 107)] =
    .ok s := ⟨_, rfl⟩
  refine ⟨s, hs, fun hfaithful => ?_⟩
  have hnames := (replay_threads_iff (fun _ _ => rfl) hs (fun _ => 113)
    (.cons _ (.swap _ _ []))).mp hfaithful
  exact absurd (hnames ("tetris", 106) (by simp) ("music", -1) (by simp)) (by decide)

end SelfChecksumming
