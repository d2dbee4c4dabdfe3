import Otui.CommandLine
import Otui.Files.Tree
import Otui.Proofs.MalformedRegistries

/-!
# Malformed data

Whatever data is read as a configuration or as a registry: it is read when nothing is wrong with it,
else reading it fails with the first of its problems, and the command line ends with that before it
does anything else (`isRead_ofData`). Problems of some kinds are reported as errors of the user, but
not those of every kind (`escapes_strangeData`).
-/

namespace Otui

/-! ### Runs -/

namespace CommandLine

variable {m : Type → Type} [Monad m]

/-- How a run ends that a fault ends at once. -/
def Ending.ofFault (fault : Fault) : Ending :=
  if fault.isReported then .ran ⟨1, [], ["error: " ++ fault.message]⟩ else .failed fault

/-- A run reads the data of a file first. With the fault that this comes to it ends; with anything
else it goes on. -/
def ReadsFirst {β : Type} (file : m (Except Fault Data)) (read : Data → Except Fault β)
    (rest : β → m Ending) (x : m Ending) : Prop :=
  x = file >>= fun given =>
    match given.bind read with
    | .error fault => pure (.ofFault fault)
    | .ok b => rest b

/-- Whether a command reads a document. -/
def Command.readsDocument : Command → Bool
  | .styles .. => false
  | _ => true

/-- A run reads the configuration file that it is given first. A command that reads a document then
reads the registry file that the configuration names, if it names one. -/
def ReadsDataFirst [FileAccess m] (i : Invocation) (x : m Ending) : Prop :=
  let path := Path.ofString (textOrEmpty i.config)
  ∃ rest : Config Float → m Ending,
    ReadsFirst (dataFile path .noConfigFile) Config.ofData
      (fun config => rest (config.seenFrom path.parent)) x
    ∧ (i.command.readsDocument = true → ∀ config p, config.registryPath = some p →
      ∃ rest', ReadsFirst (dataFile p .noRegistryFile) Registry.ofData rest' (rest config))

theorem ending_error (verbose : Bool) (fault : Fault) :
    ending verbose (⟨.error fault, []⟩, []) = .ofFault fault := by
  have hreport : report verbose (⟨.error fault, []⟩, [])
      = if fault.isReported then .ok ⟨1, [], ["error: " ++ fault.message]⟩ else .error fault := rfl
  rw [ending, hreport, Ending.ofFault]
  by_cases hreported : fault.isReported = true
  · rw [if_pos hreported, if_pos hreported]
  · rw [if_neg hreported, if_neg hreported]

variable [LawfulMonad m]

/-- Work that begins with a step that may fail ends with the fault of this step. -/
theorem ending_liftExcept_bind {β : Type} (verbose : Bool) (x : m (Except Fault β))
    (f : β → Working m Complaint) :
    ending verbose <$> Work.complete (Work.liftExcept x >>= f) [] = x >>= fun r =>
      match r with
      | .error fault => pure (.ofFault fault)
      | .ok b => ending verbose <$> Work.complete (f b) [] := by
  have hrun : (Work.liftExcept x >>= f) [] []
      = x >>= fun r =>
        match r with
        | .error fault => pure ((.error fault, []), [])
        | .ok b => f b [] [] := by
    change ((ExceptT.run (Work.liftExcept x >>= f)).run []).run [] = _
    rw [ExceptT.run_bind, StateT.run_bind, StateT.run_bind]
    change (x >>= fun r => pure ((r, []), [])) >>= _ = _
    simp only [bind_assoc, pure_bind]
    refine bind_congr fun r => ?_
    cases r <;> rfl
  simp only [Work.complete, hrun, bind_assoc, map_bind, map_pure]
  refine bind_congr fun r => ?_
  cases r with
  | error fault => simp only [pure_bind, ending_error]
  | ok b => rfl

/-- Such a step may be to read the data of a file and to change what was read. -/
theorem readsFirst_liftExcept_bind {β γ : Type} (verbose : Bool) (file : m (Except Fault Data))
    (read : Data → Except Fault β) (change : β → γ) (f : γ → Working m Complaint) :
    ReadsFirst file read (fun b => ending verbose <$> Work.complete (f (change b)) [])
      (ending verbose <$> Work.complete
        (Work.liftExcept (do return ((← file).bind read).map change) >>= f) []) := by
  rw [ending_liftExcept_bind, ReadsFirst, bind_assoc]
  refine bind_congr fun given => ?_
  rw [pure_bind]
  cases given.bind read <;> rfl

variable [FileAccess m]

/-- A command that reads a document needs the registry first. -/
theorem exists_run_eq_registryFor_bind {command : Command} (h : command.readsDocument = true)
    (config : Config Float) :
    ∃ f, (command.run config : Working m Complaint) = registryFor config >>= f := by
  cases command with
  | styles => cases h
  | format | tree | dump | preview | scaffold =>
    simp only [Command.run, format, tree, dump, preview, scaffold, readDocument, bind_assoc]
    exact ⟨_, rfl⟩

theorem readsDataFirst_run {words : List String} {i : Invocation}
    (hi : Invocation.read words = .ok i) (hpath : textOrEmpty i.config ≠ "") :
    ReadsDataFirst i (run words : m Ending) := by
  have hpath' : (textOrEmpty i.config == "") = false := beq_eq_false_iff_ne.2 hpath
  have hrun : (run words : m Ending) = ending i.verbose <$> Work.complete
      (Work.liftExcept (loadConfig (Path.ofString (textOrEmpty i.config)))
        >>= i.command.run) [] := by
    simp only [run, hi, Invocation.run, hpath', Bool.false_eq_true, if_false]
    exact bind_pure_comp _ _
  refine ⟨fun config => ending i.verbose <$> Work.complete (i.command.run config) [], ?_,
    fun hdocument config p hp => ?_⟩
  · rw [hrun]
    exact readsFirst_liftExcept_bind i.verbose _ _ _ _
  · obtain ⟨f, hf⟩ := exists_run_eq_registryFor_bind (m := m) hdocument config
    have hload : (loadRegistry p : m (Except Fault Registry))
        = do return ((← dataFile p .noRegistryFile).bind Registry.ofData).map id := by
      simp only [loadRegistry, Except.map_id, id_eq]
    dsimp only
    rw [hf, registryFor, hp]
    exact ⟨_, hload ▸ readsFirst_liftExcept_bind i.verbose _ _ id f⟩

end CommandLine

/-! ### Configurations and registries -/

/-- What reading data with some problems comes to: a result of a kind when there are none, else a
fault for the first one. -/
structure IsRead {β : Type} (problems : List FaultKind) (P : β → Prop) (x : Except Fault β) :
    Prop where
  /-- The first problem decides. -/
  meets : Meets problems x
  /-- The result is of the kind. -/
  result : ∀ b, x = .ok b → P b

/-- **Malformed data**: any data is read as a configuration and as a registry when nothing is wrong
with it. Else reading it fails with the first problem, which the command line reports exactly if it
is a bad value. Every run that is given a configuration file reads it first, and then, if it reads a
document, the registry file: when that fails, the run ends, with exit code 1 and nothing but the
message where the fault is one that is reported. -/
theorem isRead_ofData (d : Data) :
    IsRead (Config.problems d) (Config.IsAllowed d) (Config.ofData d)
      ∧ IsRead (Registry.problems d) (Registry.IsAllowed d) (Registry.ofData d)
      ∧ ∀ (m : Type → Type) [Monad m] [LawfulMonad m] [FileAccess m] (words : List String)
          (i : CommandLine.Invocation), CommandLine.Invocation.read words = .ok i →
          textOrEmpty i.config ≠ "" →
          CommandLine.ReadsDataFirst i (CommandLine.run words : m CommandLine.Ending) :=
  ⟨⟨Config.meets_ofData d, fun _ => Config.isAllowed_of_ofData⟩,
    ⟨Registry.meets_ofData d, fun _ => Registry.isAllowed_of_ofData⟩,
    fun _ _ _ _ _ _ hi hpath => CommandLine.readsDataFirst_run hi hpath⟩

/-- The words for a run with a configuration file. -/
def formatWords : List String := ["--config", "c.yaml", "format", "a.otui"]

theorem isRead_ofData_formatWords :
    ∃ i, CommandLine.Invocation.read formatWords = .ok i ∧ textOrEmpty i.config ≠ ""
      ∧ CommandLine.ReadsDataFirst i
        (CommandLine.run formatWords : StateM FileTree CommandLine.Ending) := by
  have hread : CommandLine.Invocation.read formatWords
      = .ok ⟨some "c.yaml", false, .format "a.otui"⟩ := by decide +kernel
  have hpath : textOrEmpty (some "c.yaml") ≠ "" := by decide
  exact ⟨_, hread, hpath, (isRead_ofData .null).2.2 (StateM FileTree) formatWords _ hread hpath⟩

/-- Settings with a name that is not a text, with a number where paths belong, or with a number that
is too large. -/
def strangeSettings : List Data :=
  [.mapping [(.int 1, .int 2)],
    .mapping [(.text "a", .int 1), (.null, .int 2)],
    .record [("registry_path", .int 5)],
    .record [("style_paths", .int 5)],
    .record [("image_paths", .list [.null])],
    .record [("default_width", .float (1.0 / 0.0))],
    .record [("center_threshold", .int (10 ^ 400))]]

/-- Registries with a list or a number where a mapping belongs, or with one where a name does. -/
def strangeRegistries : List Data :=
  [.record [("widgets", .list [.int 1])],
    .record [("widgets", .record [("A", .record [("props", .int 5)])])],
    .record [("widgets", .record [("A", .record [("events", .list [.int 1])])])],
    .record [("style_names", .record [("A", .int 5)])],
    .record [("aliases", .list [.list [.list [], .text "UIPanel"]])]]

/-- A run ends with a fault that the command line does not report. -/
def escapes {β : Type} : Except Fault β → Bool
  | .ok _ => false
  | .error fault => !fault.isReported

/-- The fault that ends a run without being reported, if one does. -/
def CommandLine.Ending.fault? : CommandLine.Ending → Option Fault
  | .failed fault => some fault
  | _ => none

/-- A configuration file where a path is a number, and a document. -/
def numberedPath : FileTree :=
  ⟨[(["c.yaml"], .file (Text.encodeUtf8 "\x7b\"registry_path\": 5\x7d")),
    (["a.otui"], .file (Text.encodeUtf8 "Panel\n  id: p\n"))]⟩

/-- None of their faults is reported, nor is that of a configuration file with a number where a path
belongs. And a threshold that is undefined is taken. -/
theorem escapes_strangeData :
    (∀ d ∈ strangeSettings, escapes (Config.ofData d) = true)
      ∧ (∀ d ∈ strangeRegistries, escapes (Registry.ofData d) = true)
      ∧ ((CommandLine.run formatWords : StateM FileTree _).run numberedPath).1.fault?
        = some (.notAPath "int")
      ∧ ∃ config, Config.ofData (.record [("center_threshold", .text "nan")]) = .ok config
        ∧ ¬ 0 ≤ config.threshold := by
  refine ⟨by decide +kernel, by decide +kernel, by decide +kernel, ?_⟩
  have hnan : (Config.ofData (.record [("center_threshold", .text "nan")])).toOption.any
      (fun config => !decide (0 ≤ config.threshold)) = true := by
    decide +kernel
  cases hread : Config.ofData (.record [("center_threshold", .text "nan")]) with
  | error fault =>
    rw [hread] at hnan
    cases hnan
  | ok config =>
    rw [hread] at hnan
    exact ⟨config, rfl, by simpa [Except.toOption] using hnan⟩

end Otui
