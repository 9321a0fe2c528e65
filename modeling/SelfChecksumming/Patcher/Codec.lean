import SelfChecksumming.Pass.Instrument
import SelfChecksumming.Patcher.Guide

/-! # The guide as a codec

The pass prints three numbers for each guard and the script parses them; they come back
as they are, and no two of them are equal, up to a number of guards. -/
namespace SelfChecksumming
open Library

/-! ## The placeholders of the guards -/

variable {Fn : Type}

def Guard.placeholders (g : Guard Fn) : List Int :=
  [g.address.toNat, g.length.toNat, g.expectedHash.toNat]

/-- Up to this many guards the three families of placeholders do not meet. -/
def guardLimit : Nat := 111111111

theorem guardAt_toNat {k : Nat} (hk : k ≤ guardLimit) (edge : Fn × Fn) :
    (guardAt k edge).address.toNat = 222222222 + k ∧
      (guardAt k edge).length.toNat = 555555555 + k ∧
      (guardAt k edge).expectedHash.toNat = 444444444 + k := by
  have hadd : ∀ base : UInt32, base.toNat ≤ 555555555 →
      (base + .ofNat k).toNat = base.toNat + k := by
    intro base hbase
    unfold guardLimit at hk
    have hk' : k < 2 ^ 32 := by omega
    rw [UInt32.toNat_add, UInt32.toNat_ofNat_of_lt' hk', Nat.mod_eq_of_lt (by omega)]
  exact ⟨hadd _ (by decide), hadd _ (by decide), hadd _ (by decide)⟩

theorem getElem?_guardsOf (edges : List (Fn × Fn)) (k : Nat) :
    (guardsOf edges)[k]? = edges[k]?.map (guardAt k) := List.getElem?_mapIdx

theorem guardsOf_lt {edges : List (Fn × Fn)} (hlen : edges.length ≤ guardLimit) {g : Guard Fn}
    (hg : g ∈ guardsOf edges) : ∀ v ∈ [g.address, g.length, g.expectedHash], v.toNat < 2 ^ 31 := by
  obtain ⟨k, hk⟩ := List.mem_iff_getElem?.mp hg
  rw [getElem?_guardsOf, Option.map_eq_some_iff] at hk
  obtain ⟨edge, hedge, rfl⟩ := hk
  have hle : k ≤ guardLimit := by
    have := (List.getElem?_eq_some_iff.mp hedge).1
    omega
  obtain ⟨hadd, hsize, hhash⟩ := guardAt_toNat hle edge
  unfold guardLimit at hle
  simp only [List.forall_mem_cons, hadd, hsize, hhash]
  exact ⟨by omega, by omega, by omega, nofun⟩

/-- Up to the limit the script reads the numbers that the pass wrote. -/
theorem guardsOf_toInt32 {edges : List (Fn × Fn)} (hlen : edges.length ≤ guardLimit)
    {g : Guard Fn} (hg : g ∈ guardsOf edges) : g.address.toInt32.toInt = g.address.toNat ∧
      g.length.toInt32.toInt = g.length.toNat ∧
      g.expectedHash.toInt32.toInt = g.expectedHash.toNat := by
  have hlt := guardsOf_lt hlen hg
  simp only [List.forall_mem_cons] at hlt
  obtain ⟨hadd, hsize, hhash, -⟩ := hlt
  exact ⟨toInt32_of_lt hadd, toInt32_of_lt hsize, toInt32_of_lt hhash⟩

/-- The three numbers of the guard for the `k`-th edge. -/
theorem mem_placeholders_guardAt {k : Nat} (hk : k ≤ guardLimit) {edge : Fn × Fn} {v : Int} :
    v ∈ (guardAt k edge).placeholders ↔
      v = 222222222 + k ∨ v = 555555555 + k ∨ v = 444444444 + k := by
  obtain ⟨hadd, hsize, hhash⟩ := guardAt_toNat hk edge
  simp only [Guard.placeholders, hadd, hsize, hhash, List.mem_cons, List.not_mem_nil, or_false,
    Nat.cast_add, Nat.cast_ofNat]

/-- Up to the limit no placeholder is used twice. -/
theorem nodup_placeholders {edges : List (Fn × Fn)} (hlen : edges.length ≤ guardLimit) :
    ((guardsOf edges).flatMap Guard.placeholders).Nodup := by
  have hlt : ∀ k, k < edges.length → k ≤ guardLimit := fun k hk => by omega
  rw [List.nodup_flatMap]
  constructor
  · intro g hg
    obtain ⟨k, hk⟩ := List.mem_iff_getElem?.mp hg
    rw [getElem?_guardsOf, Option.map_eq_some_iff] at hk
    obtain ⟨edge, hedge, rfl⟩ := hk
    obtain ⟨hadd, hsize, hhash⟩ :=
      guardAt_toNat (hlt k (List.getElem?_eq_some_iff.mp hedge).1) edge
    simp only [Guard.placeholders, hadd, hsize, hhash, List.nodup_cons, List.mem_cons,
      List.not_mem_nil, or_false, List.nodup_nil, not_or, and_true, not_false_eq_true]
    omega
  · rw [List.pairwise_iff_getElem]
    intro i j hi hj hij
    rw [guardsOf_length] at hi hj
    simp only [guardsOf, List.getElem_mapIdx]
    intro v hv hv'
    rw [mem_placeholders_guardAt (hlt i hi)] at hv
    rw [mem_placeholders_guardAt (hlt j hj)] at hv'
    unfold guardLimit at hlen
    omega

theorem Guard.placeholders_range {g : Guard Fn} {v : Int} (hv : v ∈ g.placeholders) :
    0 ≤ v ∧ v.toNat < 2 ^ 32 := by
  have hrange : ∀ w : UInt32, 0 ≤ (w.toNat : Int) ∧ (w.toNat : Int).toNat < 2 ^ 32 :=
    fun w => ⟨Int.natCast_nonneg _, by rw [Int.toNat_natCast]; exact w.toNat_lt⟩
  simp only [placeholders, List.mem_cons, List.not_mem_nil, or_false] at hv
  rcases hv with rfl | rfl | rfl
  · exact hrange _
  · exact hrange _
  · exact hrange _

/-! ## Parsing -/

/-- What the script takes from a line before it looks the name up. -/
structure ParsedLine where
  targetFunc : String
  addPlaceholder : Int
  sizePlaceholder : Int
  hashPlaceholder : Int
  deriving DecidableEq, Repr

def parseLine (line : List Char) : Except Fault ParsedLine := do
  let s := split ',' line
  let targetFunc ← item s 0
  let addPlaceholder ← item s 1 >>= int
  let sizePlaceholder ← item s 2 >>= int
  let hashPlaceholder ← item s 3 >>= int
  return { targetFunc := .ofList targetFunc, addPlaceholder, sizePlaceholder, hashPlaceholder }

/-- A line is parsed, and then its name is looked up. -/
theorem readLine_eq (r2 : Radare) (st : List Patch × List String) (line : List Char) :
    readLine r2 st line = do
      let parsed ← parseLine line
      let (info, dummy, seeks) ← resolve r2 st.2 parsed.targetFunc
      return (st.1 ++ [⟨parsed.addPlaceholder, parsed.sizePlaceholder, parsed.hashPlaceholder,
        info.offset, info.size, 0, dummy⟩], seeks) := by
  unfold readLine parseLine
  simp only [bind_assoc, pure_bind]

def GuideLine.parsed (line : GuideLine) : ParsedLine where
  targetFunc := line.functionName
  addPlaceholder := line.address.toInt32.toInt
  sizePlaceholder := line.length.toInt32.toInt
  hashPlaceholder := line.expectedHash.toInt32.toInt

theorem parseLine_body {line : GuideLine} (h : PlainName line.functionName.toList) :
    parseLine line.body = .ok line.parsed := by
  unfold parseLine
  rw [GuideLine.split_body h]
  simp only [item, List.getElem?_cons_zero, List.getElem?_cons_succ, bind, Except.bind,
    int_formatD, String.ofList_toList]
  rfl

/-- What was printed is parsed line by line. -/
theorem parse_guideText {guide : List GuideLine}
    (h : ∀ line ∈ guide, PlainName line.functionName.toList) :
    ((readlines (guideText guide)).map strip).mapM parseLine =
      .ok (guide.map GuideLine.parsed) := by
  rw [content_guideText h]
  induction guide with
  | nil => rfl
  | cons line guide ih =>
    have hline := parseLine_body (h line List.mem_cons_self)
    have hrest := ih fun l hl => h l (List.mem_cons_of_mem _ hl)
    rw [List.map_cons, List.mapM_cons, hline, hrest]
    rfl

/-! ## Names -/

/-- The characters of a normalised name. -/
theorem mem_demangleName {cxaDemangle : String → Option String} {name text : String}
    (h : cxaDemangle name = some text) {c : Char} (hc : c ∈ (demangleName cxaDemangle name).toList) :
    c = '_' ∨ c ∈ text.toList ∧ c ≠ ' ' ∧ isFolded c = false := by
  simp only [demangleName, h, String.toList_ofList, List.mem_map, List.mem_filter,
    decide_eq_true_eq] at hc
  obtain ⟨a, ⟨ha, hblank⟩, rfl⟩ := hc
  cases hfold : isFolded a with
  | true => exact .inl rfl
  | false => exact .inr ⟨ha, hblank, hfold⟩

/-- A normalised name can be read back: what does not demangle is plain, and what does has
no other white space than blanks. -/
theorem plainName_demangleName {cxaDemangle : String → Option String} {name : String}
    (hraw : cxaDemangle name = none → PlainName name.toList)
    (hdemangled : ∀ text, cxaDemangle name = some text → ∀ c ∈ text.toList, isSpace c = true →
      c = ' ') : PlainName (demangleName cxaDemangle name).toList := by
  cases hname : cxaDemangle name with
  | none =>
    have hself : demangleName cxaDemangle name = name := by rw [demangleName, hname]
    rw [hself]
    exact hraw hname
  | some text =>
    have hspace : ∀ c ∈ (demangleName cxaDemangle name).toList, isSpace c = false := by
      intro c hc
      rcases mem_demangleName hname hc with rfl | ⟨hmem, hblank, -⟩
      · rfl
      · by_contra hs
        exact hblank (hdemangled text hname c hmem (by simpa using hs))
    refine ⟨fun hcomma => ?_, fun hbreak => ?_, fun c hc => hspace c (List.mem_of_mem_head? hc)⟩
    · rcases mem_demangleName hname hcomma with he | ⟨-, -, hfold⟩
      · cases he
      · cases hfold
    · cases hspace '\n' hbreak

/-! ## A whole guide -/

variable [LinearOrder Fn] [OrderBot Fn]

/-- What is to be read back for a guard. -/
def Guard.parsed (cxaDemangle : String → Option String) (M : Module Fn) (g : Guard Fn) :
    ParsedLine where
  targetFunc := demangleName cxaDemangle (M.getName g.checkee)
  addPlaceholder := g.address.toNat
  sizePlaceholder := g.length.toNat
  hashPlaceholder := g.expectedHash.toNat

/-- Whatever network is walked, up to the limit: the script parses from the guide, in the
order of injection, the names of the checkees and the numbers that the guards store, all of
them different and below 2^31. -/
theorem guide_codec {env : Environment Fn} {M : Module Fn} {sens : List Fn} {net : Network Fn}
    {st : PassState Fn} (h : injectGuards env M sens net = .ok st)
    (hcount : st.guards.length ≤ 111111111)
    (hraw : ∀ g ∈ st.guards, env.cxaDemangle (M.getName g.checkee) = none →
      PlainName (M.getName g.checkee).toList)
    (hdemangled : ∀ g ∈ st.guards, ∀ text, env.cxaDemangle (M.getName g.checkee) = some text →
      ∀ c ∈ text.toList, isSpace c = true → c = ' ') :
    st.guards.map Guard.edge = net.injected ∧
      ((readlines (guideText st.guide)).map strip).mapM parseLine =
        .ok (st.guards.map (Guard.parsed env.cxaDemangle M)) ∧
      (∀ (k : Nat) g, st.guards[k]? = some g → ∀ x ∈ g.instructions M k,
        (st.deref g.host).Contains x) ∧
      (st.guards.flatMap Guard.placeholders).Nodup ∧
      ∀ g ∈ st.guards, ∀ v ∈ [g.address, g.length, g.expectedHash], v.toNat < 2 ^ 31 ∧
        formatD v = Nat.toDigits 10 v.toNat ∧ packI v.toNat = .ok (littleEndian 4 v.toNat) := by
  have ht := tally_of_injectGuards h
  have hlen : net.injected.length ≤ guardLimit := by
    rwa [ht.guards, guardsOf_length] at hcount
  refine ⟨?_, ?_, ?_, ?_, ?_⟩
  · rw [ht.guards, guardsOf_edge]
  · have hparsed : ∀ g ∈ st.guards, (g.line env.cxaDemangle M).parsed =
        g.parsed env.cxaDemangle M := by
      intro g hg
      obtain ⟨hadd, hsize, hhash⟩ := guardsOf_toInt32 hlen (ht.guards ▸ hg)
      simp only [GuideLine.parsed, Guard.line, Guard.parsed, hadd, hsize, hhash]
    have hplain : ∀ line ∈ st.guide, PlainName line.functionName.toList := by
      rw [ht.guide]
      intro line hline
      obtain ⟨g, hg, rfl⟩ := List.mem_map.mp hline
      exact plainName_demangleName (hraw g hg) (hdemangled g hg)
    rw [parse_guideText hplain, ht.guide, List.map_map]
    exact congrArg Except.ok (List.map_congr_left hparsed)
  · intro k g hg x hx
    exact (planted_of_injectGuards h g.host x).mpr (.inr ⟨k, g, hg, rfl, hx⟩)
  · rw [ht.guards]
    exact nodup_placeholders hlen
  · intro g hg v hv
    have hlt := guardsOf_lt hlen (ht.guards ▸ hg) v hv
    refine ⟨hlt, ?_, packI_of_lt ⟨Int.natCast_nonneg _, ?_⟩⟩
    · rw [formatD_eq, toInt32_of_lt hlt, if_neg (by omega), Int.toNat_natCast]
    · rw [Int.toNat_natCast]
      omega

/-- Two of the three functions are mangled. -/
def mangledModule : Module Nat where
  functions := [1, 2, 3]
  deref F :=
    { sampleModule.deref F with
      name := if F = 1 then "_Z1fic" else if F = 2 then "_Z1fRi" else "f3" }
  nodup := sampleModule.nodup
  nonnull := sampleModule.nonnull
  unique := by decide
  terminated := sampleModule.terminated

/-- One text has a comma and a blank. -/
def demanglingEnvironment : Environment Nat :=
  { sampleEnvironment .unopened with
    cxaDemangle := fun name =>
      if name = "_Z1fic" then some "f(int, char)"
      else if name = "_Z1fRi" then some "f(int&)" else none }

theorem guide_codec_sample : ∃ st,
    injectGuards demanglingEnvironment mangledModule [1, 2] sampleNetwork = .ok st ∧
    ((readlines (guideText st.guide)).map strip).mapM parseLine =
      .ok [⟨"f_int_char_", 222222222, 555555555, 444444444⟩,
        ⟨"f_int__", 222222223, 555555556, 444444445⟩] := by
  obtain ⟨st, hst⟩ : ∃ st, injectGuards demanglingEnvironment mangledModule [1, 2]
      sampleNetwork = .ok st := ⟨_, rfl⟩
  have hguards : st.guards = [⟨2, 1, 222222222, 555555555, 444444444⟩,
      ⟨3, 2, 222222223, 555555556, 444444445⟩] := by
    cases hst
    rfl
  have hcodec := guide_codec hst (by rw [hguards]; decide) (fun g hg hname => ?_)
    (fun g hg text htext => ?_)
  · refine ⟨st, hst, hcodec.2.1.trans ?_⟩
    rw [hguards]
    rfl
  · rw [hguards] at hg
    rcases List.mem_pair.mp hg with rfl | rfl <;> cases hname
  · have hall : ∀ text ∈ ["f(int, char)", "f(int&)"],
        text.toList.all (fun c => !isSpace c || c = ' ') = true := by decide
    have hmem : text ∈ ["f(int, char)", "f(int&)"] := by
      rw [hguards] at hg
      rcases List.mem_pair.mp hg with rfl | rfl <;> cases htext <;> simp
    exact fun c hc hspace => by simpa [hspace] using List.all_eq_true.mp (hall text hmem) c hc

end SelfChecksumming
