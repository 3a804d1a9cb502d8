import Mathlib.Data.List.Nodup
import QspNode.Config.Validation

namespace qsp.config

/-- The directory that the configuration of an analyzer names. -/
def explicit_storage_dir : Value → Option Value
  | .dict ((_, .dict analyzer_config) :: _) => Value.lookup "storage_dir" analyzer_config
  | _ => none

/-- The directory of an analyzer's name in the home folder, which is the default
    of the next analyzer. -/
def home_storage (env : Environment) : Value → Value
  | .dict ((analyzer_name, _) :: _) => .str (env.home ++ "/." ++ env.str analyzer_name)
  | _ => .None

/-- Two analyzers have one storage directory only if the configuration names it
    for both. -/
def SharedExplicitly (analyzers_config : List Value) (analyzers : List Analyzer) : Prop :=
  ∀ i j : Nat, i ≠ j → ∀ a b c d, analyzers[i]? = some a → analyzers[j]? = some b →
    analyzers_config[i]? = some c → analyzers_config[j]? = some d → a.storage_dir = b.storage_dir →
      explicit_storage_dir c = some a.storage_dir ∧ explicit_storage_dir d = some a.storage_dir

/-- The home directory of an analyzer, where the next one has none of its own, is
    not named in the configuration, nor the temporary folder that the first one
    falls back to. -/
def HomesUnused (env : Environment) (analyzers_config : List Value) : Prop :=
  ∀ i c next, analyzers_config[i]? = some c → analyzers_config[i + 1]? = some next →
    explicit_storage_dir next = none →
      (∀ d ∈ analyzers_config, explicit_storage_dir d ≠ some (home_storage env c)) ∧
      ∀ first, analyzers_config[0]? = some first → explicit_storage_dir first = none →
        home_storage env c ≠ .str env.gettempdir

section
variable {env : Environment} {analyzers_config : List Value} {analyzers : List Analyzer}

theorem create_analyzer_storage {default_storage analyzer_config_dict : Value} {analyzer : Analyzer}
    (hcreate : create_analyzer env default_storage analyzer_config_dict = .ok analyzer) :
    analyzer.storage_dir = (explicit_storage_dir analyzer_config_dict).getD default_storage ∧
      home_storage env analyzer_config_dict =
        .str (env.home ++ "/." ++ env.str analyzer.analyzer_name) := by
  simp only [create_analyzer, bind_eq_ok_iff, pure_eq_ok_iff] at hcreate
  obtain ⟨⟨name, settings⟩, hentry, args, _, storage_dir, hstorage, timeout_sec, _, _, _, rfl⟩ := hcreate
  obtain ⟨entries, rfl, rfl⟩ := get_eq_ok_iff.mp hstorage
  unfold analyzer_entry at hentry
  split at hentry
  · cases hentry
  · obtain rfl := Except.ok.inj hentry
    exact ⟨rfl, rfl⟩
  · cases hentry

/-- Each analyzer has the directory named for it, or the one that its
    predecessor left. -/
theorem create_analyzers_loop_storage {default_storage : Value}
    (hcreate : create_analyzers_loop env default_storage analyzers_config = .ok analyzers) :
    analyzers.map Analyzer.storage_dir =
        List.zipWith (fun c default => (explicit_storage_dir c).getD default) analyzers_config
          (default_storage :: analyzers_config.map (home_storage env)) ∧
      analyzers_config.map (home_storage env) =
        analyzers.map (fun analyzer => .str (env.home ++ "/." ++ env.str analyzer.analyzer_name)) := by
  induction analyzers_config generalizing default_storage analyzers with
  | nil =>
    obtain rfl := Except.ok.inj hcreate
    exact ⟨rfl, rfl⟩
  | cons analyzer_config_dict analyzers_config ih =>
    simp only [create_analyzers_loop, bind_eq_ok_iff, pure_eq_ok_iff] at hcreate
    obtain ⟨analyzer, hanalyzer, rest, hrest, rfl⟩ := hcreate
    obtain ⟨hstorage, hhome⟩ := create_analyzer_storage hanalyzer
    rw [← hhome] at hrest
    obtain ⟨hdirs, hhomes⟩ := ih hrest
    constructor
    · rw [List.map_cons, hstorage, hdirs, List.map_cons, List.zipWith_cons_cons]
    · rw [List.map_cons, List.map_cons, hhome, hhomes]

/-- The directory at a position of the list. -/
theorem storage_at (hcreate : create_analyzers env (.list analyzers_config) = .ok analyzers) {i : Nat}
    {a : Analyzer} {c : Value} (ha : analyzers[i]? = some a) (hc : analyzers_config[i]? = some c) :
    (∃ dir, explicit_storage_dir c = some dir ∧ a.storage_dir = dir) ∨
      explicit_storage_dir c = none ∧
        ((i = 0 ∧ a.storage_dir = .str env.gettempdir) ∨
          ∃ k previous, i = k + 1 ∧ analyzers_config[k]? = some previous ∧
            a.storage_dir = home_storage env previous) := by
  have hdirs := (create_analyzers_loop_storage hcreate).1
  have hdir : (analyzers.map Analyzer.storage_dir)[i]? = some a.storage_dir := by
    rw [List.getElem?_map, ha, Option.map_some]
  rw [hdirs, List.getElem?_zipWith, hc] at hdir
  cases hexplicit : explicit_storage_dir c with
  | some dir =>
    left
    cases hdefault : (Value.str env.gettempdir :: analyzers_config.map (home_storage env))[i]? with
    | none => simp [hdefault] at hdir
    | some default =>
      simp only [hdefault, hexplicit, Option.getD_some, Option.some.injEq] at hdir
      exact ⟨dir, rfl, hdir.symm⟩
  | none =>
    right
    refine ⟨rfl, ?_⟩
    cases i with
    | zero =>
      left
      simp only [List.getElem?_cons_zero, hexplicit, Option.getD_none, Option.some.injEq] at hdir
      exact ⟨rfl, hdir.symm⟩
    | succ k =>
      right
      rw [List.getElem?_cons_succ, List.getElem?_map] at hdir
      cases hprevious : analyzers_config[k]? with
      | none => simp [hprevious] at hdir
      | some previous =>
        simp only [hprevious, Option.map_some, hexplicit, Option.getD_none, Option.some.injEq] at hdir
        exact ⟨k, previous, rfl, hprevious, hdir.symm⟩

theorem storage_of_explicit (hcreate : create_analyzers env (.list analyzers_config) = .ok analyzers)
    {i : Nat} {a : Analyzer} {c dir : Value} (ha : analyzers[i]? = some a)
    (hc : analyzers_config[i]? = some c) (hexplicit : explicit_storage_dir c = some dir) :
    a.storage_dir = dir := by
  rcases storage_at hcreate ha hc with ⟨dir', hsome, hdir⟩ | ⟨hnone, _⟩
  · rw [hdir, Option.some.inj (hsome.symm.trans hexplicit)]
  · rw [hexplicit] at hnone
    cases hnone

theorem storage_of_fallback (hcreate : create_analyzers env (.list analyzers_config) = .ok analyzers)
    {i : Nat} {a : Analyzer} {c : Value} (ha : analyzers[i]? = some a)
    (hc : analyzers_config[i]? = some c) (hnone : explicit_storage_dir c = none) :
    (i = 0 ∧ a.storage_dir = .str env.gettempdir) ∨
      ∃ k previous, i = k + 1 ∧ analyzers_config[k]? = some previous ∧
        a.storage_dir = home_storage env previous := by
  rcases storage_at hcreate ha hc with ⟨dir, hsome, _⟩ | ⟨_, hfallback⟩
  · rw [hnone] at hsome
    cases hsome
  · exact hfallback

/-- Different names have different directories in the home folder. -/
theorem home_storage_inj (hcreate : create_analyzers env (.list analyzers_config) = .ok analyzers)
    (hdistinct : (analyzers.map (fun analyzer => env.str analyzer.analyzer_name)).Nodup) {i k : Nat}
    {c d : Value} (hc : analyzers_config[i]? = some c) (hd : analyzers_config[k]? = some d)
    (hhome : home_storage env c = home_storage env d) : i = k := by
  have hhomes := (create_analyzers_loop_storage hcreate).2
  have hnodup : (analyzers_config.map (home_storage env)).Nodup := by
    have hinj : Function.Injective (fun name : String => Value.str (env.home ++ "/." ++ name)) := by
      intro s t heq
      exact String.append_right_inj _ |>.mp (Value.str.inj heq)
    have hmap := List.Nodup.map hinj hdistinct
    rw [List.map_map] at hmap
    rw [hhomes]
    exact hmap
  have hlt : i < (analyzers_config.map (home_storage env)).length := by
    rw [List.length_map]
    exact (List.getElem?_eq_some_iff.mp hc).1
  apply (List.getElem?_inj hlt hnodup).mp
  rw [List.getElem?_map, List.getElem?_map, hc, hd, Option.map_some, Option.map_some, hhome]

/-- A directory that is named is not one that an analyzer falls back to. -/
theorem fallback_ne_explicit (hunused : HomesUnused env analyzers_config)
    (htemp : ∀ c ∈ analyzers_config, explicit_storage_dir c ≠ some (.str env.gettempdir))
    (hcreate : create_analyzers env (.list analyzers_config) = .ok analyzers) {i : Nat} {a : Analyzer}
    {c : Value} (ha : analyzers[i]? = some a) (hc : analyzers_config[i]? = some c)
    (hnone : explicit_storage_dir c = none) :
    ∀ d ∈ analyzers_config, explicit_storage_dir d ≠ some a.storage_dir := by
  intro d hd
  rcases storage_of_fallback hcreate ha hc hnone with ⟨_, hdir⟩ | ⟨k, previous, rfl, hprevious, hdir⟩
  · rw [hdir]
    exact htemp d hd
  · rw [hdir]
    exact (hunused k previous c hprevious hc hnone).1 d hd

/-- Two analyzers do not fall back to one directory. -/
theorem fallback_inj (hunused : HomesUnused env analyzers_config)
    (hcreate : create_analyzers env (.list analyzers_config) = .ok analyzers)
    (hdistinct : (analyzers.map (fun analyzer => env.str analyzer.analyzer_name)).Nodup) {i j : Nat}
    {a b : Analyzer} {c d : Value} (ha : analyzers[i]? = some a) (hb : analyzers[j]? = some b)
    (hc : analyzers_config[i]? = some c) (hd : analyzers_config[j]? = some d)
    (hnone : explicit_storage_dir c = none) (hnone' : explicit_storage_dir d = none)
    (hshared : a.storage_dir = b.storage_dir) : i = j := by
  have hcase' := storage_of_fallback hcreate hb hd hnone'
  rcases storage_of_fallback hcreate ha hc hnone with ⟨rfl, hdir⟩ | ⟨k, previous, rfl, hprevious, hdir⟩
  · rcases hcase' with ⟨rfl, _⟩ | ⟨l, previous', rfl, hprevious', hdir'⟩
    · rfl
    · have hne := (hunused l previous' d hprevious' hd hnone').2 c hc hnone
      exact absurd (hdir'.symm.trans (hshared.symm.trans hdir)) hne
  · rcases hcase' with ⟨rfl, hdir'⟩ | ⟨l, previous', rfl, hprevious', hdir'⟩
    · have hne := (hunused k previous c hprevious hc hnone).2 d hd hnone'
      exact absurd (hdir.symm.trans (hshared.trans hdir')) hne
    · have hhome : home_storage env previous = home_storage env previous' := by
        rw [← hdir, ← hdir', hshared]
      rw [home_storage_inj hcreate hdistinct hprevious hprevious' hhome]

theorem exists_analyzer (hcreate : create_analyzers env (.list analyzers_config) = .ok analyzers) {i : Nat}
    {c : Value} (hc : analyzers_config[i]? = some c) : ∃ a, analyzers[i]? = some a := by
  have hlength : analyzers_config.length = analyzers.length := by
    simpa using congrArg List.length (create_analyzers_loop_storage hcreate).2
  have hlt : i < analyzers.length := hlength ▸ (List.getElem?_eq_some_iff.mp hc).1
  exact ⟨analyzers[i], List.getElem?_eq_getElem hlt⟩

theorem storage_of_successor (hcreate : create_analyzers env (.list analyzers_config) = .ok analyzers)
    {i : Nat} {a : Analyzer} {c next : Value} (ha : analyzers[i + 1]? = some a)
    (hc : analyzers_config[i]? = some c) (hnext : analyzers_config[i + 1]? = some next)
    (hnone : explicit_storage_dir next = none) : a.storage_dir = home_storage env c := by
  rcases storage_of_fallback hcreate ha hnext hnone with ⟨hzero, _⟩ | ⟨k, previous, hk, hprevious, hdir⟩
  · cases hzero
  · obtain rfl : i = k := Nat.succ.inj hk
    rw [hdir, Option.some.inj (hprevious.symm.trans hc)]

/-- Where nothing is shared by accident, the home directory that an analyzer
    falls back to is that of no other one. -/
theorem home_storage_apart (hshared : SharedExplicitly analyzers_config analyzers)
    (hcreate : create_analyzers env (.list analyzers_config) = .ok analyzers) {i j : Nat} {b : Analyzer}
    {c d next : Value} (hc : analyzers_config[i]? = some c) (hnext : analyzers_config[i + 1]? = some next)
    (hnone : explicit_storage_dir next = none) (hne : i + 1 ≠ j) (hb : analyzers[j]? = some b)
    (hd : analyzers_config[j]? = some d) : b.storage_dir ≠ home_storage env c := by
  intro hsame
  obtain ⟨a, ha⟩ := exists_analyzer hcreate hnext
  have hdir := storage_of_successor hcreate ha hc hnext hnone
  have hnamed := (hshared (i + 1) j hne a b next d ha hb hnext hd (hdir.trans hsame.symm)).1
  rw [hnone] at hnamed
  cases hnamed

/-- Two analyzers share a directory by accident exactly when one of them falls
    back to the home directory of its predecessor, which another one is given
    explicitly or which is the temporary folder of the first. -/
theorem shared_explicitly_iff (hcreate : create_analyzers env (.list analyzers_config) = .ok analyzers)
    (hdistinct : (analyzers.map (fun analyzer => env.str analyzer.analyzer_name)).Nodup)
    (htemp : ∀ c ∈ analyzers_config, explicit_storage_dir c ≠ some (.str env.gettempdir)) :
    SharedExplicitly analyzers_config analyzers ↔ HomesUnused env analyzers_config := by
  constructor
  · intro hshared i c next hc hnext hnone
    constructor
    · intro d hmem hexplicit
      obtain ⟨j, hd⟩ := List.getElem?_of_mem hmem
      obtain ⟨b, hb⟩ := exists_analyzer hcreate hd
      have hne : i + 1 ≠ j := by
        rintro rfl
        rw [Option.some.inj (hnext.symm.trans hd), hexplicit] at hnone
        cases hnone
      exact home_storage_apart hshared hcreate hc hnext hnone hne hb hd
        (storage_of_explicit hcreate hb hd hexplicit)
    · intro first hfirst hnone' hsame
      obtain ⟨b, hb⟩ := exists_analyzer hcreate hfirst
      apply home_storage_apart hshared hcreate hc hnext hnone (Nat.succ_ne_zero i) hb hfirst
      rcases storage_of_fallback hcreate hb hfirst hnone' with ⟨_, hdir⟩ | ⟨k, _, hzero, _⟩
      · rw [hdir, hsame]
      · cases hzero
  · intro hunused i j hne a b c d ha hb hc hd hshared
    cases hexplicit : explicit_storage_dir c with
    | none =>
      cases hexplicit' : explicit_storage_dir d with
      | none =>
        exact absurd (fallback_inj hunused hcreate hdistinct ha hb hc hd hexplicit hexplicit' hshared) hne
      | some dir =>
        rw [← storage_of_explicit hcreate hb hd hexplicit', ← hshared] at hexplicit'
        have hmem := List.mem_of_getElem? hd
        exact absurd hexplicit' (fallback_ne_explicit hunused htemp hcreate ha hc hexplicit d hmem)
    | some dir =>
      obtain rfl := storage_of_explicit hcreate ha hc hexplicit
      cases hexplicit' : explicit_storage_dir d with
      | none =>
        rw [hshared] at hexplicit
        have hmem := List.mem_of_getElem? hc
        exact absurd hexplicit (fallback_ne_explicit hunused htemp hcreate hb hd hexplicit' c hmem)
      | some dir =>
        obtain rfl := storage_of_explicit hcreate hb hd hexplicit'
        exact ⟨rfl, by rw [hshared]⟩

end

def storage_environment : Environment :=
  { sample_environment with
    str := fun v =>
      match v with
      | .str s => s
      | v => v.type_name }

/-- Two analyzers, the first of which is given its storage directory, and the
    second perhaps. -/
def two_analyzers (storage_dir : String) (settings : List (Value × Value)) : List Value :=
  [.dict [(.str "mythril", .dict [(.str "storage_dir", .str storage_dir)])],
    .dict [(.str "securify", .dict settings)]]

def created (mythril securify : String) : List Analyzer :=
  [{ analyzer_name := .str "mythril"
     args := .str ""
     storage_dir := .str mythril
     timeout_sec := .int 60 },
    { analyzer_name := .str "securify"
      args := .str ""
      storage_dir := .str securify
      timeout_sec := .int 60 }]

theorem created_distinct (mythril securify : String) :
    ((created mythril securify).map (fun analyzer => storage_environment.str analyzer.analyzer_name)).Nodup :=
  (by decide : ["mythril", "securify"].Nodup)

theorem shared_explicitly_two_analyzers :
    SharedExplicitly
        (two_analyzers "/tmp/mythril" [(.str "storage_dir", .str "/tmp/securify")])
        (created "/tmp/mythril" "/tmp/securify") ↔
      HomesUnused storage_environment
        (two_analyzers "/tmp/mythril" [(.str "storage_dir", .str "/tmp/securify")]) := by
  apply shared_explicitly_iff rfl (created_distinct "/tmp/mythril" "/tmp/securify")
  simp [two_analyzers, explicit_storage_dir, Value.lookup, Value.is_str, storage_environment,
    sample_environment]

/-- An analyzer without a directory gets the one its predecessor was given. -/
theorem shared_by_accident :
    create_analyzers storage_environment (.list (two_analyzers "/root/.mythril" [])) =
        .ok (created "/root/.mythril" "/root/.mythril") ∧
      ((created "/root/.mythril" "/root/.mythril").map
        (fun analyzer => storage_environment.str analyzer.analyzer_name)).Nodup ∧
      (∀ c ∈ two_analyzers "/root/.mythril" [],
        explicit_storage_dir c ≠ some (.str storage_environment.gettempdir)) ∧
      ¬ SharedExplicitly (two_analyzers "/root/.mythril" [])
        (created "/root/.mythril" "/root/.mythril") := by
  refine ⟨rfl, created_distinct "/root/.mythril" "/root/.mythril", ?_, ?_⟩
  · simp [two_analyzers, explicit_storage_dir, Value.lookup, Value.is_str, storage_environment,
      sample_environment]
  · intro hshared
    have hnamed := (hshared 0 1 (by decide) _ _ _ _ rfl rfl rfl rfl rfl).2
    cases hnamed

end qsp.config
