import Otui.Config.Loading
import Otui.Proofs.BinarySums
import Otui.Proofs.WellFormedPlaces

/-!
# Settings from malformed data

Data of any shape may be given for a configuration. What is wrong with it is listed in the order in
which it is read (`Config.problems`), and reading it fails with the first of these problems
(`meets_ofData`).

Most problems are values that make no sense, which the command line reports as errors of its user.
But unknown names are taken for texts when they are told, what stands where a path belongs is not
looked at before it is taken for one, and a number that is too large is not among those that are
reported.
-/

namespace Otui

/-! ### First problems -/

section Meets

variable {β γ : Type}

/-- A run comes to a result when there are no problems, else it ends with the first of them; the
command line reports it if it is a bad value. -/
def Meets (problems : List FaultKind) : Except Fault β → Prop
  | .ok _ => problems = []
  | .error fault => problems.head? = some fault.kind
    ∧ (fault.isReported = true ↔ problems.head? = some .badValue)

theorem meets_ok (b : β) : Meets [] (.ok b) := rfl

theorem meets_error {kind : FaultKind} {problems : List FaultKind} {fault : Fault}
    (hkind : fault.kind = kind) (hfile : kind ∉ [.badBytes, .missingFile]) :
    Meets (kind :: problems) (.error fault : Except Fault β) := by
  have hkinds : kind ≠ .badBytes ∧ kind ≠ .missingFile := by simpa using hfile
  refine ⟨congrArg some hkind.symm, ?_⟩
  simp [Fault.isReported, Fault.isBadValue, hkind, hkinds]

theorem Meets.eq_nil {problems : List FaultKind} {x : Except Fault β} {b : β}
    (h : Meets problems x) (hx : x = .ok b) : problems = [] := by
  rw [hx] at h
  exact h

theorem Meets.bind {first rest : List FaultKind} {x : Except Fault β} {f : β → Except Fault γ}
    (hx : Meets first x) (hf : ∀ b, x = .ok b → Meets rest (f b)) :
    Meets (first ++ rest) (x >>= f) := by
  cases x with
  | ok b =>
    rw [hx.eq_nil rfl]
    exact hf b rfl
  | error fault =>
    obtain ⟨hkind, hreported⟩ := hx
    obtain ⟨kinds, rfl⟩ := List.head?_eq_some_iff.1 hkind
    exact ⟨hkind, hreported⟩

theorem Meets.map {problems : List FaultKind} {x : Except Fault β} (h : Meets problems x)
    (f : β → γ) : Meets problems (x.map f) := by
  cases x with
  | ok b => exact h
  | error fault => exact h

theorem Meets.bind_pure {problems : List FaultKind} {x : Except Fault β} (h : Meets problems x)
    (f : β → γ) : Meets problems (x >>= fun b => pure (f b)) := by
  cases x with
  | ok b => exact h
  | error fault => exact h

/-- The first problem of a list of data is the first one of the first member that has any. -/
theorem meets_mapM {problems : β → List FaultKind} {f : β → Except Fault γ} {xs : List β}
    (h : ∀ x ∈ xs, Meets (problems x) (f x)) : Meets (xs.flatMap problems) (xs.mapM f) := by
  induction xs with
  | nil => exact meets_ok []
  | cons x xs ih =>
    obtain ⟨hx, hxs⟩ := List.forall_mem_cons.1 h
    rw [List.mapM_cons, List.flatMap_cons]
    exact hx.bind fun y _ => (ih hxs).bind_pure _

end Meets

namespace Config

/-! ### Paths -/

/-- What is wrong with a value where a path belongs. -/
def pathProblems : Data → List FaultKind
  | .text _ => []
  | _ => [.badKind]

/-- What is wrong with a value where the path of a registry, or nothing, belongs. -/
def registryProblems : Option Data → List FaultKind
  | none | some .null => []
  | some d => pathProblems d

/-- What is wrong with a value where paths belong: a text is one, and what has members has paths
among them, such as the names of a mapping. -/
def pathsProblems : Option Data → List FaultKind
  | none | some .null | some (.text _) => []
  | some d =>
    match d.members? with
    | some ds => ds.flatMap pathProblems
    | none => [.badKind]

theorem meets_pathOfData (d : Data) : Meets (pathProblems d) (pathOfData d) := by
  fun_cases pathOfData d with
  | case1 => exact meets_ok _
  | case2 =>
    simp only [pathProblems]
    exact meets_error rfl (by decide)

theorem meets_pathsOfData (given : Option Data) :
    Meets (pathsProblems given) (pathsOfData given) := by
  fun_cases pathsOfData given with
  | case1 | case2 | case3 => exact meets_ok _
  | case4 d _ _ ds hds =>
    simp only [pathsProblems, hds]
    exact meets_mapM fun d _ => meets_pathOfData d
  | case5 d _ _ hds =>
    simp only [pathsProblems, hds]
    exact meets_error rfl (by decide)

/-! ### Numbers -/

/-- What is wrong with a value where a binary number belongs. -/
def thresholdProblems : Option Data → List FaultKind
  | none | some (.bool _) | some (.float _) => []
  | some (.int n) => if (Scalar.ofInt? n : Option Float).isSome then [] else [.overflow]
  | some (.text s) => if (Number.float? s).isSome then [] else [.badValue]
  | some (.bytes bs) =>
    if ((Data.asciiText? bs).bind Number.float?).isSome then [] else [.badValue]
  | some _ => [.badValue]

/-- What is wrong with a value where an integer belongs. A numeral may have too many digits. -/
def sizeProblems : Option Data → List FaultKind
  | none | some (.bool _) | some (.int _) => []
  | some (.float x) =>
    match Number.exact x with
    | .finite .. => []
    | .infinite _ => [.overflow]
    | .nan => [.badValue]
  | some (.text s) => if (Number.integer? s).isSome then [] else [.badValue]
  | some (.bytes bs) =>
    if ((Data.asciiText? bs).bind Number.integer?).isSome then [] else [.badValue]
  | some _ => [.badValue]

section number

variable {ν : Type} {read : Data → Except Fault ν} {d : Data} (standard : ν)

theorem meets_number_of_ok {v : ν} (h : read d = .ok v) :
    Meets [] (number read (some d) standard) := by
  simp only [number, h]
  exact meets_ok v

/-- A value that cannot be read is a bad setting. -/
theorem meets_number_of_error {fault : Fault} (h : read d = .error fault)
    (hkind : fault.kind ≠ .overflow) : Meets [.badValue] (number read (some d) standard) := by
  simp only [number, h, beq_iff_eq, hkind, if_false]
  exact meets_error rfl (by decide)

/-- One that is too large stays what it is. -/
theorem meets_number_of_overflow {fault : Fault} (h : read d = .error fault)
    (hkind : fault.kind = .overflow) : Meets [.overflow] (number read (some d) standard) := by
  simp only [number, h, hkind, beq_self_eq_true, if_true]
  exact meets_error hkind (by decide)

end number

theorem meets_floatOf {d : Data} {shown s : String} (h : Data.toFloat d = Data.floatOf shown s)
    (standard : Float) :
    Meets (if (Number.float? s).isSome then [] else [.badValue])
      (number Data.toFloat (some d) standard) := by
  rw [Data.floatOf] at h
  cases hs : Number.float? s with
  | some x =>
    rw [hs] at h
    exact meets_number_of_ok standard h
  | none =>
    rw [hs] at h
    exact meets_number_of_error standard h (by simp [Fault.kind])

theorem meets_threshold (given : Option Data) (standard : Float) :
    Meets (thresholdProblems given) (number Data.toFloat given standard) := by
  match given with
  | none => exact meets_ok standard
  | some (.bool _) | some (.float _) => exact meets_number_of_ok standard rfl
  | some .null | some (.day _) | some (.moment _) | some (.pair ..) | some (.list _) | some (.set _)
  | some (.mapping _) => exact meets_number_of_error standard rfl (by simp [Fault.kind])
  | some (.text s) => exact meets_floatOf rfl standard
  | some (.bytes bs) =>
    rw [thresholdProblems]
    cases hbs : Data.asciiText? bs with
    | some s =>
      have hread : Data.toFloat (.bytes bs) = Data.floatOf (Text.quotedBytes bs) s := by
        simp only [Data.toFloat, hbs]
      exact meets_floatOf hread standard
    | none =>
      have hread : Data.toFloat (.bytes bs) = .error (.notANumeral (Text.quotedBytes bs)) := by
        simp only [Data.toFloat, hbs]
      exact meets_number_of_error standard hread (by simp [Fault.kind])
  | some (.int n) =>
    rw [thresholdProblems]
    cases hn : (Scalar.ofInt? n : Option Float) with
    | some x =>
      have hread : Data.toFloat (.int n) = .ok x := by simp only [Data.toFloat, hn]
      exact meets_number_of_ok standard hread
    | none =>
      have hread : Data.toFloat (.int n) = .error .integerTooLarge := by
        simp only [Data.toFloat, hn]
      exact meets_number_of_overflow standard hread rfl

theorem meets_integerOf {d : Data} {shown s : String} (h : Data.toInt d = Data.integerOf shown s)
    (standard : Int) :
    Meets (if (Number.integer? s).isSome then [] else [.badValue])
      (number Data.toInt (some d) standard) := by
  rw [Data.integerOf] at h
  rw [Number.integer?]
  cases hs : Number.readInteger s with
  | ok n =>
    rw [hs] at h
    exact meets_number_of_ok standard h
  | error why =>
    rw [hs] at h
    -- Neither a malformed numeral nor one that is too long is reported as too large.
    cases why with
    | malformed | tooLong => exact meets_number_of_error standard h (by simp [Fault.kind])

theorem meets_size (given : Option Data) (standard : Int) :
    Meets (sizeProblems given) (number Data.toInt given standard) := by
  match given with
  | none => exact meets_ok standard
  | some (.bool _) | some (.int _) => exact meets_number_of_ok standard rfl
  | some .null | some (.day _) | some (.moment _) | some (.pair ..) | some (.list _) | some (.set _)
  | some (.mapping _) => exact meets_number_of_error standard rfl (by simp [Fault.kind])
  | some (.text s) => exact meets_integerOf rfl standard
  | some (.bytes bs) =>
    rw [sizeProblems]
    cases hbs : Data.asciiText? bs with
    | some s =>
      have hread : Data.toInt (.bytes bs) = Data.integerOf (Text.quotedBytes bs) s := by
        simp only [Data.toInt, hbs]
      exact meets_integerOf hread standard
    | none =>
      have hread : Data.toInt (.bytes bs) = .error (.notAnInteger (Text.quotedBytes bs)) := by
        simp only [Data.toInt, hbs]
      exact meets_number_of_error standard hread (by simp [Fault.kind])
  | some (.float x) =>
    rw [sizeProblems]
    have htoInt : Data.toInt (.float x) = (Number.truncate x).mapError .unroundable := rfl
    rw [Number.truncate, Number.roundWith] at htoInt
    cases hx : Number.exact x with
    | finite negative m e =>
      rw [hx] at htoInt
      exact meets_number_of_ok standard htoInt
    | infinite negative =>
      rw [hx] at htoInt
      exact meets_number_of_overflow standard htoInt rfl
    | nan =>
      rw [hx] at htoInt
      exact meets_number_of_error standard htoInt (by simp [Fault.kind])

/-! ### Bounds -/

/-- What is wrong with numbers that can be read. -/
def boundProblems (threshold : Except Fault Float) (width height : Except Fault Int) :
    List FaultKind :=
  match threshold, width, height with
  | .ok x, .ok w, .ok h => if x < 0 ∨ w ≤ 0 ∨ h ≤ 0 then [.badValue] else []
  | _, _, _ => []

theorem meets_bounds {threshold : Float} {width height : Int} (config : Config Float) :
    Meets (boundProblems (.ok threshold) (.ok width) (.ok height))
      (if threshold < 0 then .error .negativeThreshold
        else if width ≤ 0 || height ≤ 0 then .error .emptySize
        else .ok config) := by
  rw [boundProblems]
  by_cases hthreshold : threshold < 0
  · simp only [hthreshold, true_or, if_true]
    exact meets_error rfl (by decide)
  · simp only [hthreshold, false_or, if_false, Bool.or_eq_true, decide_eq_true_iff]
    split
    · exact meets_error rfl (by decide)
    · exact meets_ok config

/-! ### Configurations -/

/-- What is wrong with the settings of a mapping whose names are known, in the order in which they
are read. -/
def entryProblems (d : Data) : List FaultKind :=
  registryProblems (d.get? "registry_path")
    ++ (pathsProblems (d.get? "style_paths")
    ++ (pathsProblems (d.get? "image_paths")
    ++ (thresholdProblems (d.get? "center_threshold")
    ++ (sizeProblems (d.get? "default_width")
    ++ (sizeProblems (d.get? "default_height")
    ++ boundProblems (number Data.toFloat (d.get? "center_threshold") standard.threshold)
      (number Data.toInt (d.get? "default_width") (standard : Config Float).defaultWidth)
      (number Data.toInt (d.get? "default_height") (standard : Config Float).defaultHeight))))))

/-- What is wrong with the names that there are not: they are bad values, or of a bad kind when not
all of them are texts. -/
def unknownProblems (names : List Data) : List FaultKind :=
  if names.all fun name => name.text?.isSome then names.map fun _ => .badValue else [.badKind]

/-- What is wrong with the data of a configuration. -/
def problems : Data → List FaultKind
  | .null => []
  | .mapping es =>
    unknownProblems ((es.map Prod.fst).filter fun name => !isSetting name)
      ++ entryProblems (.mapping es)
  | _ => [.badValue]

theorem meets_ofEntries (d : Data) : Meets (entryProblems d) (ofEntries d) := by
  rw [ofEntries, entryProblems]
  -- The path of the registry is read in one of three ways. What follows is the same in each.
  split
  all_goals
    refine .bind ?_ fun _ _ => .bind (meets_pathsOfData _) fun _ _ =>
      .bind (meets_pathsOfData _) fun _ _ => .bind (meets_threshold _ _) fun _ hthreshold =>
      .bind (meets_size _ _) fun _ hwidth => .bind (meets_size _ _) fun _ hheight => by
        rw [hthreshold, hwidth, hheight]
        exact meets_bounds _
  · next hgiven =>
    rw [hgiven]
    exact meets_ok none
  · next hgiven =>
    rw [hgiven]
    exact meets_ok none
  · next p hne hgiven =>
    have hproblems : registryProblems (some p) = pathProblems p := by
      unfold registryProblems
      split
      · next h => cases h
      · next h => exact absurd (Option.some.inj h) hne
      · next h => rw [Option.some.inj h]
    rw [hgiven, hproblems]
    exact (meets_pathOfData p).map some

theorem isSome_mapM {β γ : Type} (f : β → Option γ) (xs : List β) :
    (xs.mapM f).isSome = xs.all fun x => (f x).isSome := by
  induction xs with
  | nil => rfl
  | cons x xs ih =>
    rw [List.mapM_cons, List.all_cons, ← ih]
    cases f x with
    | none => rfl
    | some y => cases xs.mapM f <;> rfl

/-- Names that are all texts are told. Else some two of them cannot be ordered, or one cannot be
joined. -/
theorem meets_unknownFault {β : Type} (name : Data) (names : List Data) (rest : List FaultKind) :
    Meets (unknownProblems (name :: names) ++ rest)
      (.error (unknownFault name names) : Except Fault β) := by
  rw [unknownProblems, ← isSome_mapM Data.text?]
  fun_cases unknownFault name names with
  | case1 texts htexts =>
    rw [htexts]
    exact meets_error rfl (by simp)
  | case2 htexts | case3 htexts =>
    rw [htexts]
    exact meets_error rfl (by decide)

theorem meets_ofData (d : Data) : Meets (problems d) (ofData d) := by
  fun_cases ofData d with
  | case1 => exact meets_ok _
  | case2 es hunknown =>
    rw [problems, hunknown]
    exact meets_ofEntries (.mapping es)
  | case3 es name names hunknown =>
    rw [problems, hunknown]
    exact meets_unknownFault name names _
  | case4 =>
    simp only [problems]
    exact meets_error rfl (by decide)

/-- A configuration keeps to the names and the bounds that there are. -/
structure IsAllowed (d : Data) (config : Config Float) : Prop where
  /-- All names in the data are those of settings. -/
  names : ∀ es, d = .mapping es → ∀ e ∈ es, ∃ name ∈ settings, e.1 = .text name
  /-- The threshold is not below nought; it may be undefined. -/
  threshold : 0 ≤ config.threshold ∨ config.threshold.isNaN = true
  /-- The default sizes are not below one. -/
  sizes : 1 ≤ config.defaultWidth ∧ 1 ≤ config.defaultHeight

theorem exists_of_isSetting {d : Data} (h : isSetting d = true) :
    ∃ name ∈ settings, d = .text name := by
  cases d with
  | text s => exact ⟨s, by simpa [isSetting, Data.text?] using h, rfl⟩
  | null | bool | int | float | bytes | day | moment | pair | list | set | mapping => cases h

theorem isAllowed_of_ofData {d : Data} {config : Config Float} (h : ofData d = .ok config) :
    IsAllowed d config := by
  have hsizes : 1 ≤ config.defaultWidth ∧ 1 ≤ config.defaultHeight := hasSizes_ofData h
  revert h
  fun_cases ofData d with
  | case1 =>
    rintro ⟨⟩
    exact ⟨fun es hes => Data.noConfusion hes, .inl (by decide), hsizes⟩
  | case2 es hunknown =>
    intro h
    have hthreshold := Number.zero_le_or_isNaN (bounds_of_ofEntries h).1
    refine ⟨fun es' hes e he => exists_of_isSetting ?_, hthreshold, hsizes⟩
    obtain rfl := Data.mapping.inj hes
    have hknown := List.filter_eq_nil_iff.1 hunknown e.1 (List.mem_map_of_mem he)
    simpa using hknown
  | case3 | case4 => exact nofun

end Config

end Otui
