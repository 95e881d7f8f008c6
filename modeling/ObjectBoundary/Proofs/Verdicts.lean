import ObjectBoundary.CommandLine
import ObjectBoundary.Proofs.Model.Growth

/-!
# Verdicts on model files

The files of a check share one registry, so the verdict on a file depends on the files before it,
but only on those that were accepted. Leaving out the files that were rejected changes no other
verdict, and a file that was accepted once is accepted again with the same words, wherever it is
repeated. This is said of the lines that a check prints. They are all that stands in the output
stream when log events go elsewhere, as they do unless the settings send them there.
-/

namespace ObjectBoundary

/-! ### Attempts to load -/

namespace Registry

variable {r r' : Registry} {m : Model} {l : Loaded}

theorem loadAll_append (r : Registry) (ms more : List Model) :
    r.loadAll (ms ++ more) = (r.loadAll ms).loadAll more := List.foldl_append

theorem loadAll_singleton (h : r.load m = .ok (l, r')) : r.loadAll [m] = r' :=
  congrArg Prod.snd (register_eq_ok_iff.mpr h)

/-- A model that was loaded is loaded again after further attempts, and nothing is added. -/
theorem WellFormed.load_again (wf : r.WellFormed) (h : r.load m = .ok (l, r'))
    (later : List Model) : (r'.loadAll later).load m = .ok (l, r'.loadAll later) := by
  obtain ⟨enums, interfaces, admits, rfl, rfl⟩ := load_eq_ok_iff.mp h
  exact admits.load_again wf.toIndexed (extends_loadAll _ later)

end Registry

namespace CommandLine

/-! ### The judgement of files -/

section Judgement

variable (read : String → Except FileError String)

/-- What is said about a file after some models have been accepted: the model in it with the line
about it, or why it is rejected. -/
def judge (before : List Model) (path : String) : Except String (Model × String) :=
  match read path with
  | .error cause => .error ("Error reading " ++ path ++ ": " ++ cause.message)
  | .ok text =>
    match Model.parse text with
    | .error cause => .error (path ++ ": " ++ (ModelError.parse cause).message)
    | .ok m =>
      match (Registry.loadAll {} before).load m with
      | .error cause => .error (path ++ ": " ++ cause.message)
      | .ok (loaded, _) => .ok (m, accepted path loaded)

/-- The models that are accepted by the end of some files. -/
def admitted (before : List Model) : List String → List Model
  | [] => before
  | path :: rest =>
    match judge read before path with
    | .ok (m, _) => admitted (before ++ [m]) rest
    | .error _ => admitted before rest

/-- The verdicts on some files, in order. -/
def verdicts (before : List Model) : List String → List (Except String String)
  | [] => []
  | path :: rest =>
    (judge read before path).map Prod.snd :: verdicts (admitted read before [path]) rest

end Judgement

def approvals (found : List (Except String String)) : List String := found.filterMap Except.toOption

def rejections (found : List (Except String String)) : List String :=
  found.filterMap fun verdict =>
    match verdict with
    | .ok _ => none
    | .error message => some message

/-- How a run ends that has found verdicts on a number of files, its log left aside. -/
def conclude (total : Nat) (found : List (Except String String)) : Outcome where
  status := if rejections found = [] then 0 else 1
  output := approvals found
  errors := rejections found ++
    if rejections found = [] then []
    else ["\n" ++ Text.decimal (rejections found).length ++ " of " ++ Text.decimal total ++
      " model(s) rejected"]

/-- The files with a verdict other than a rejection. -/
def withoutRejected (paths : List String) (found : List (Except String String)) : List String :=
  (paths.zip found).filterMap fun (path, verdict) => verdict.toOption.map fun _ => path

variable {read : String → Except FileError String} {before : List Model} {path : String}
  {m : Model} {line message : String}

/-- A file is accepted when it can be read, holds a model, and the model can be loaded into the
registry of the models that were accepted before it. -/
theorem judge_eq_ok_iff : judge read before path = .ok (m, line) ↔
    ∃ text loaded r, read path = .ok text ∧ Model.parse text = .ok m ∧
      (Registry.loadAll {} before).load m = .ok (loaded, r) ∧ line = accepted path loaded := by
  constructor
  · intro h
    unfold judge at h
    split at h
    · cases h
    · next text readable =>
      split at h
      · cases h
      · next parsed =>
        split at h
        · cases h
        · next loaded r found =>
          cases h
          exact ⟨text, loaded, r, readable, parsed, found, rfl⟩
  · rintro ⟨text, loaded, r, readable, parsed, found, rfl⟩
    simp [judge, readable, parsed, found]

/-- What is accepted is loaded into the registry of the models that were accepted. -/
theorem loadModel_of_ok (h : judge read before path = .ok (m, line)) :
    ∃ loaded, loadModel read (Registry.loadAll {} before) path =
        .ok (loaded, Registry.loadAll {} (before ++ [m])) ∧ line = accepted path loaded := by
  obtain ⟨text, loaded, r, readable, parsed, found, rfl⟩ := judge_eq_ok_iff.mp h
  refine ⟨loaded, ?_, rfl⟩
  rw [Registry.loadAll_append, Registry.loadAll_singleton found]
  simp [loadModel, Registry.loadText, readable, parsed, found]

theorem loadModel_of_error (h : judge read before path = .error message) :
    loadModel read (Registry.loadAll {} before) path = .error message := by
  unfold judge at h
  split at h
  · next unreadable =>
    cases h
    simp [loadModel, unreadable]
  · next readable =>
    split at h
    · next unparsed =>
      cases h
      simp [loadModel, Registry.loadText, readable, unparsed]
    · next parsed =>
      split at h
      · next refused =>
        cases h
        simp [loadModel, Registry.loadText, readable, parsed, refused]
      · cases h

theorem admitted_of_ok (h : judge read before path = .ok (m, line)) (rest : List String) :
    admitted read before (path :: rest) = admitted read (before ++ [m]) rest := by
  simp [admitted, h]

theorem admitted_of_error (h : judge read before path = .error message) (rest : List String) :
    admitted read before (path :: rest) = admitted read before rest := by
  simp [admitted, h]

theorem verdicts_of_ok (h : judge read before path = .ok (m, line)) (rest : List String) :
    verdicts read before (path :: rest) = .ok line :: verdicts read (before ++ [m]) rest := by
  simp [verdicts, admitted, h, Except.map]

theorem verdicts_of_error (h : judge read before path = .error message) (rest : List String) :
    verdicts read before (path :: rest) = .error message :: verdicts read before rest := by
  simp [verdicts, admitted, h, Except.map]

/-- A file after others is judged by the models that these have brought. -/
theorem verdicts_append (before : List Model) (first rest : List String) :
    verdicts read before (first ++ rest) =
      verdicts read before first ++ verdicts read (admitted read before first) rest := by
  induction first generalizing before with
  | nil => rfl
  | cons path first ih =>
    cases h : judge read before path with
    | ok found => simp only [List.cons_append, verdicts_of_ok h, admitted_of_ok h, ih]
    | error message => simp only [List.cons_append, verdicts_of_error h, admitted_of_error h, ih]

theorem admitted_append (before : List Model) (first rest : List String) :
    admitted read before (first ++ rest) = admitted read (admitted read before first) rest := by
  induction first generalizing before with
  | nil => rfl
  | cons path first ih =>
    cases h : judge read before path with
    | ok found => simp only [List.cons_append, admitted_of_ok h, ih]
    | error message => simp only [List.cons_append, admitted_of_error h, ih]

theorem length_verdicts (read : String → Except FileError String)
    (before : List Model) (paths : List String) :
    (verdicts read before paths).length = paths.length := by
  induction paths generalizing before with
  | nil => rfl
  | cons path rest ih => simp [verdicts, ih]

/-- Models are only added. -/
theorem exists_admitted_eq (read : String → Except FileError String)
    (before : List Model) (paths : List String) :
    ∃ more, admitted read before paths = before ++ more := by
  induction paths generalizing before with
  | nil => exact ⟨[], (List.append_nil _).symm⟩
  | cons path rest ih =>
    cases h : judge read before path with
    | ok found =>
      obtain ⟨more, grown⟩ := ih (before ++ [found.1])
      refine ⟨found.1 :: more, ?_⟩
      rw [admitted_of_ok h, grown, List.append_assoc, List.singleton_append]
    | error message => rw [admitted_of_error h]; exact ih before

theorem loadModel_congr {other : String → Except FileError String} (same : read path = other path)
    (r : Registry) : loadModel read r path = loadModel other r path := by
  simp only [loadModel, same]

/-- The check of files says what the verdicts on them are, as long as these files read alike
whatever is logged. -/
theorem checkFiles_says {view : View} {paths : List String}
    (still : ∀ path ∈ paths, ∀ logged, view logged path = read path) (before : List Model)
    (logged : List LogEvent) :
    let report := checkFiles view (Registry.loadAll {} before) logged paths
    report.output = approvals (verdicts read before paths) ∧
      report.errors = rejections (verdicts read before paths) := by
  induction paths generalizing before logged with
  | nil => exact ⟨rfl, rfl⟩
  | cons path rest ih =>
    obtain ⟨same, still⟩ := List.forall_mem_cons.mp still
    have loads := loadModel_congr (same (logged ++ [.checking path]))
      (Registry.loadAll {} before)
    cases h : judge read before path with
    | ok found =>
      obtain ⟨loaded, registered, said⟩ := loadModel_of_ok h
      rw [registered] at loads
      obtain ⟨output, errors⟩ := ih still (before ++ [found.1])
        (logged ++ [.checking path] ++ [.registered loaded])
      simp only [checkFiles, loads, output, errors, verdicts_of_ok h, said]
      exact ⟨rfl, rfl⟩
    | error message =>
      rw [loadModel_of_error h] at loads
      obtain ⟨output, errors⟩ := ih still before
        (logged ++ [.checking path] ++ [.rejected path message])
      simp only [checkFiles, loads, output, errors, verdicts_of_error h]
      exact ⟨rfl, rfl⟩

/-- The check of files ends as the verdicts on them say. -/
theorem check_eq {view : View} {paths : List String}
    (still : ∀ path ∈ paths, ∀ logged, view logged path = read path) (logged : List LogEvent) :
    check view logged paths =
      { conclude paths.length (verdicts read [] paths) with
        events := (checkFiles view {} logged paths).events } := by
  obtain ⟨output, errors⟩ :
      (checkFiles view {} logged paths).output = approvals (verdicts read [] paths) ∧
        (checkFiles view {} logged paths).errors = rejections (verdicts read [] paths) :=
    checkFiles_says still [] logged
  unfold check conclude
  by_cases none : rejections (verdicts read [] paths) = []
  · simp [output, errors, none]
  · simp [output, errors, none]

theorem getElem?_verdicts (before : List Model) (first : List String) (path : String)
    (rest : List String) :
    (verdicts read before (first ++ path :: rest))[first.length]? =
      some ((judge read (admitted read before first) path).map Prod.snd) := by
  have length := length_verdicts read before first
  rw [verdicts_append, List.getElem?_append_right (Nat.le_of_eq length), length, Nat.sub_self]
  rfl

theorem map_snd_eq_ok_iff {judged : Except String (Model × String)} :
    judged.map Prod.snd = .ok line ↔ ∃ m, judged = .ok (m, line) := by
  cases judged with
  | error message => simp [Except.map]
  | ok found =>
    obtain ⟨m, said⟩ := found
    simp [Except.map]

/-! ### Leaving out and repeating -/

/-- Files that were rejected have no part in the verdicts on the others. -/
theorem verdicts_withoutRejected (read : String → Except FileError String)
    (before : List Model) (paths : List String) :
    approvals (verdicts read before (withoutRejected paths (verdicts read before paths))) =
        approvals (verdicts read before paths) ∧
      rejections (verdicts read before (withoutRejected paths (verdicts read before paths))) =
        [] := by
  induction paths generalizing before with
  | nil => exact ⟨rfl, rfl⟩
  | cons path rest ih =>
    cases h : judge read before path with
    | ok found =>
      obtain ⟨approved, rejected⟩ := ih (before ++ [found.1])
      have kept : withoutRejected (path :: rest) (verdicts read before (path :: rest)) =
          path :: withoutRejected rest (verdicts read (before ++ [found.1]) rest) := by
        rw [verdicts_of_ok h]
        rfl
      rw [kept, verdicts_of_ok h, verdicts_of_ok h]
      exact ⟨congrArg (found.2 :: ·) approved, rejected⟩
    | error message =>
      have dropped : withoutRejected (path :: rest) (verdicts read before (path :: rest)) =
          withoutRejected rest (verdicts read before rest) := by
        rw [verdicts_of_error h]
        rfl
      rw [dropped, verdicts_of_error h]
      exact ih before

/-- Only the registry of the accepted models matters. -/
theorem verdicts_congr {other : List Model}
    (same : Registry.loadAll {} before = Registry.loadAll {} other) (paths : List String) :
    verdicts read before paths = verdicts read other paths := by
  induction paths generalizing before other with
  | nil => rfl
  | cons path rest ih =>
    have judged : judge read before path = judge read other path := by
      simp only [judge, same]
    cases h : judge read before path with
    | ok found =>
      rw [verdicts_of_ok h, verdicts_of_ok (judged ▸ h)]
      refine congrArg (_ :: ·) (ih ?_)
      rw [Registry.loadAll_append, Registry.loadAll_append, same]
    | error message =>
      rw [verdicts_of_error h, verdicts_of_error (judged ▸ h), ih same]

/-- A file that was accepted is accepted again after more files, and adds nothing. -/
theorem judge_again (h : judge read before path = .ok (m, line)) (between : List String) :
    judge read (admitted read (before ++ [m]) between) path = .ok (m, line) ∧
      Registry.loadAll {} (admitted read (before ++ [m]) between ++ [m]) =
        Registry.loadAll {} (admitted read (before ++ [m]) between) := by
  obtain ⟨text, loaded, r, readable, parsed, found, rfl⟩ := judge_eq_ok_iff.mp h
  obtain ⟨more, grown⟩ := exists_admitted_eq read (before ++ [m]) between
  have registered :
      Registry.loadAll {} (admitted read (before ++ [m]) between) = r.loadAll more := by
    rw [grown, Registry.loadAll_append, Registry.loadAll_append, Registry.loadAll_singleton found]
  have again : (r.loadAll more).load m = .ok (loaded, r.loadAll more) :=
    (Registry.wellFormed_empty.loadAll before).load_again found more
  constructor
  · refine judge_eq_ok_iff.mpr ⟨text, loaded, r.loadAll more, readable, parsed, ?_, rfl⟩
    rw [registered, again]
  · rw [Registry.loadAll_append, registered, Registry.loadAll_singleton again]

/-- Repeating a file that was accepted repeats its line, and no other verdict changes. -/
theorem verdicts_repeated {first between rest : List String}
    (approved : (verdicts read before (first ++ path :: between ++ rest))[first.length]? =
      some (.ok line)) :
    verdicts read before (first ++ path :: between ++ path :: rest) =
      (verdicts read before (first ++ path :: between ++ rest)).take
          (first ++ path :: between).length ++
        .ok line :: (verdicts read before (first ++ path :: between ++ rest)).drop
          (first ++ path :: between).length := by
  rw [List.append_assoc, List.cons_append, getElem?_verdicts, Option.some.injEq,
    map_snd_eq_ok_iff] at approved
  obtain ⟨m, judged⟩ := approved
  have after : admitted read before (first ++ path :: between) =
      admitted read (admitted read before first ++ [m]) between := by
    rw [admitted_append, admitted_of_ok judged]
  obtain ⟨again, unchanged⟩ := judge_again judged between
  rw [verdicts_append _ _ rest, ← length_verdicts read before, List.take_left,
    List.drop_left, verdicts_append _ _ (path :: rest), after, verdicts_of_ok again,
    verdicts_congr unchanged]

theorem mem_of_mem_withoutRejected {paths : List String} {found : List (Except String String)}
    (member : path ∈ withoutRejected paths found) : path ∈ paths := by
  obtain ⟨⟨other, verdict⟩, listed, kept⟩ := List.mem_filterMap.mp member
  obtain ⟨_, _, rfl⟩ := Option.map_eq_some_iff.mp kept
  exact (List.of_mem_zip listed).1

/-- Without the rejected files a check says the same about the others and succeeds. -/
theorem conclude_withoutRejected (read : String → Except FileError String) (total : Nat)
    (paths : List String) :
    conclude total (verdicts read [] (withoutRejected paths (verdicts read [] paths))) =
      { output := approvals (verdicts read [] paths) } := by
  obtain ⟨approved, rejected⟩ := verdicts_withoutRejected read [] paths
  rw [conclude, approved, rejected]
  rfl

theorem withoutRejected_ne_nil {paths : List String}
    (some : approvals (verdicts read [] paths) ≠ []) :
    withoutRejected paths (verdicts read [] paths) ≠ [] := by
  intro none
  have same := (verdicts_withoutRejected read [] paths).1
  rw [none] at same
  exact some same.symm

theorem conclude_append_ok (total more : Nat) (found rest : List (Except String String))
    (line : String) :
    (conclude more (found ++ .ok line :: rest)).status = (conclude total (found ++ rest)).status ∧
      (conclude more (found ++ .ok line :: rest)).output =
        approvals found ++ line :: approvals rest := by
  simp [conclude, approvals, rejections, Except.toOption]

/-! ### Whole runs -/

def IsPlain (argument : String) : Prop := argument.toList.head? ≠ some '-'

theorem split_plain {arguments : List String} (plain : ∀ argument ∈ arguments, IsPlain argument)
    (found : Split) :
    split found arguments = .ok { found with positional := found.positional ++ arguments } := by
  induction arguments generalizing found with
  | nil => simp [split]
  | cons argument rest ih =>
    have first : IsPlain argument := plain argument (by simp)
    have none : ∀ option : String, ¬ IsPlain option → argument ≠ option :=
      fun option isOption same => isOption (same ▸ first)
    have config := none "--config" (by simp [IsPlain])
    have help := none "--help" (by simp [IsPlain])
    have h := none "-h" (by simp [IsPlain])
    have verbose := none "--verbose" (by simp [IsPlain])
    have v := none "-v" (by simp [IsPlain])
    rw [split]
    · simp only [help, h, verbose, v, or_self, if_false, if_neg first]
      rw [ih fun a ha => plain a (by simp [ha])]
      simp
    · exact config

theorem parse_check {paths : List String} (nonempty : paths ≠ [])
    (plain : ∀ path ∈ paths, IsPlain path) :
    parse ("check" :: paths) = .ok ⟨.check paths, none, false⟩ := by
  have all : ∀ argument ∈ "check" :: paths, IsPlain argument := by
    intro argument member
    rcases List.mem_cons.mp member with rfl | member
    · simp [IsPlain]
    · exact plain argument member
  unfold parse
  rw [split_plain all]
  simp [command, nonempty, bind, Except.bind, pure, Except.pure]

/-- Whether a check can begin does not depend on the files that it is given. -/
theorem prepare_check {working : String} {paths others : List String} {ready : Ready}
    (hp : paths ≠ []) (plain : ∀ path ∈ paths, IsPlain path)
    (ho : others ≠ []) (plain' : ∀ path ∈ others, IsPlain path)
    (prepared : prepare read working ("check" :: paths) = .ok ready) :
    prepare read working ("check" :: others) = .ok { ready with command := .check others } := by
  unfold prepare at prepared ⊢
  rw [parse_check hp plain] at prepared
  rw [parse_check ho plain']
  have same : settings read working ⟨.check others, none, false⟩ =
      settings read working ⟨.check paths, none, false⟩ := rfl
  simp only [bind, Except.bind] at prepared ⊢
  rw [same]
  cases found : settings read working ⟨.check paths, none, false⟩ with
  | error cause =>
    rw [found] at prepared
    cases prepared
  | ok chosen =>
    rw [found] at prepared
    cases chosen with
    | none =>
      cases prepared
      rfl
    | some chosen =>
      simp only [Except.mapError] at prepared ⊢
      cases config : chosen.logging.toConfig with
      | error cause =>
        rw [config] at prepared
        cases prepared
      | ok config' =>
        rw [config] at prepared
        cases prepared
        rfl

/-- A check can begin: its arguments and settings can be read, its log can be opened, and what is
logged changes none of the files to check, which give what `read` says. -/
structure Begins (around : Surroundings) (paths : List String) (ready : Ready)
    (read : String → Except FileError String) : Prop where
  prepared : prepare around.read around.working ("check" :: paths) = .ok ready
  opened : ∃ view, around.openLog ready.logging.output = .ok view ∧
    ∀ path ∈ paths, ∀ logged, view logged path = read path

/-- A check that can begin ends as the verdicts say, also when it is given some of the files only or
some of them again. -/
theorem Begins.run_check {around : Surroundings} {paths others : List String} {ready : Ready}
    (begins : Begins around paths ready read) (hp : paths ≠ [])
    (plain : ∀ path ∈ paths, IsPlain path) (ho : others ≠ []) (among : others ⊆ paths) :
    ∃ events, runIn around ("check" :: others) =
      { conclude others.length (verdicts read [] others) with
        events, logging := ready.logging } := by
  obtain ⟨prepared, view, opened, still⟩ := begins
  have prepared' :=
    prepare_check hp plain ho (fun path member => plain path (among member)) prepared
  let logged := started { ready with command := .check others }
  have ends := check_eq (fun path member => still path (among member)) logged
  refine ⟨(checkFiles view {} logged others).events, ?_⟩
  simp only [runIn, prepared', opened, perform, logged, ends]

/-! ### The output stream -/

namespace Outcome

/-- These lines and nothing else stand in the output stream after a run. -/
def LeavesOnly (o : Outcome) (lines : List String) : Prop :=
  ∀ output, (∃ errors, o.Leaves output errors) ↔ output = lines.map .line

end Outcome

theorem filterMap_line?_map (lines : List String) :
    (lines.map Piece.line).filterMap Piece.line? = lines := by
  rw [List.filterMap_map]
  exact List.filterMap_some

theorem filterMap_event?_map (lines : List String) :
    (lines.map Piece.line).filterMap Piece.event? = [] := by
  simp [List.filterMap_map, Function.comp_def, Piece.event?]

/-- A stream without events is made of its lines. -/
theorem eq_map_line {stream : List Piece} (quiet : stream.filterMap Piece.event? = []) :
    stream = (stream.filterMap Piece.line?).map Piece.line := by
  induction stream with
  | nil => rfl
  | cons piece rest ih =>
    cases piece with
    | line text => exact congrArg (Piece.line text :: ·) (ih quiet)
    | event told => cases quiet

/-- The lines of a run can stand in both streams by themselves. -/
theorem leaves_lines (o : Outcome) :
    o.Leaves (o.output.map Piece.line) (o.errors.map Piece.line) where
  output_lines := filterMap_line?_map o.output
  error_lines := filterMap_line?_map o.errors
  output_events := by
    rw [filterMap_event?_map]
    exact List.nil_sublist _
  error_events := by
    rw [filterMap_event?_map]
    exact List.nil_sublist _

/-- When log events go elsewhere, the output stream holds the lines of the run. -/
theorem leavesOnly_output {o : Outcome} (elsewhere : o.logging.output ≠ .stdout) :
    o.LeavesOnly o.output := by
  intro output
  constructor
  · rintro ⟨errors, leaves⟩
    have quiet : output.filterMap Piece.event? = [] := by
      have events := leaves.output_events
      rw [Outcome.eventsAt, if_neg elsewhere] at events
      exact List.sublist_nil.mp events
    rw [eq_map_line quiet, leaves.output_lines]
  · rintro rfl
    exact ⟨_, leaves_lines o⟩

/-- A check judges each file by the models that were accepted before it. It prints a line for each
file that is accepted and an error for each that is rejected, in order, then how many were rejected,
and it succeeds when none was. Without the rejected files it prints the same and succeeds; with an
accepted file repeated it prints the line about that file once more and ends as before. Unless the
settings send log events to the output stream, these lines are all that stands there. -/
theorem check_judges_each_file {around : Surroundings} {paths : List String} {ready : Ready}
    {read : String → Except FileError String} (nonempty : paths ≠ [])
    (plain : ∀ path ∈ paths, IsPlain path) (begins : Begins around paths ready read) :
    let found := verdicts read [] paths
    let outcome := runIn around ("check" :: paths)
    found.length = paths.length ∧
    (∀ first path rest line, paths = first ++ path :: rest →
      (found[first.length]? = some (.ok line) ↔
        ∃ m text loaded r, read path = .ok text ∧ Model.parse text = .ok m ∧
          (Registry.loadAll {} (admitted read [] first)).load m = .ok (loaded, r) ∧
          line = accepted path loaded)) ∧
    outcome.output = approvals found ∧
    outcome.errors = rejections found ++
      (if rejections found = [] then []
      else ["\n" ++ Text.decimal (rejections found).length ++ " of " ++
        Text.decimal paths.length ++ " model(s) rejected"]) ∧
    (outcome.status = 0 ↔ rejections found = []) ∧
    (approvals found ≠ [] →
      let alone := runIn around ("check" :: withoutRejected paths found)
      alone.status = 0 ∧ alone.output = outcome.output ∧ alone.errors = []) ∧
    (∀ first path between rest line, paths = first ++ path :: between ++ rest →
      found[first.length]? = some (.ok line) →
      let again := runIn around ("check" :: (first ++ path :: between ++ path :: rest))
      let place := (first ++ path :: between).length
      again.status = outcome.status ∧
        again.output = approvals (found.take place) ++ line :: approvals (found.drop place)) ∧
    (ready.logging.output ≠ .stdout → ∀ others, others ≠ [] → others ⊆ paths →
      let other := runIn around ("check" :: others)
      other.LeavesOnly other.output) := by
  intro found outcome
  obtain ⟨events, judged⟩ : ∃ events, outcome =
      { conclude paths.length found with events, logging := ready.logging } :=
    begins.run_check nonempty plain nonempty (List.Subset.refl paths)
  refine ⟨length_verdicts read [] paths, ?_, ?_, ?_, ?_, ?_, ?_, ?_⟩
  · rintro first path rest line rfl
    rw [getElem?_verdicts, Option.some.injEq, map_snd_eq_ok_iff]
    exact exists_congr fun m => judge_eq_ok_iff
  · rw [judged, conclude]
  · rw [judged, conclude]
  · rw [judged, conclude]
    simp
  · intro some
    obtain ⟨_, ends⟩ := begins.run_check nonempty plain (withoutRejected_ne_nil some)
      fun path member => mem_of_mem_withoutRejected member
    rw [conclude_withoutRejected] at ends
    rw [ends, judged, conclude]
    exact ⟨rfl, rfl, rfl⟩
  · rintro first path between rest line rfl approved
    have some : first ++ path :: between ++ path :: rest ≠ [] := by simp
    have among : first ++ path :: between ++ path :: rest ⊆ first ++ path :: between ++ rest := by
      intro p member
      simp only [List.mem_append, List.mem_cons] at member ⊢
      tauto
    obtain ⟨_, again⟩ := begins.run_check nonempty plain some among
    rw [verdicts_repeated approved] at again
    rw [again, judged]
    have ending := conclude_append_ok (first ++ path :: between ++ rest).length
      (first ++ path :: between ++ path :: rest).length
      (found.take (first ++ path :: between).length)
      (found.drop (first ++ path :: between).length) line
    rwa [List.take_append_drop] at ending
  · intro elsewhere others some among
    obtain ⟨_, ends⟩ := begins.run_check nonempty plain some among
    refine leavesOnly_output ?_
    rw [ends]
    exact elsewhere

/-- A model is rejected before the one that it needs and accepted after it. -/
theorem late_model_accepted :
    let textA := "\x7b\"interfaces\":[\x7b\"name\":\"IA\"\x7d]\x7d"
    let textB := "\x7b\"interfaces\":[\x7b\"name\":\"IB\",\"properties\":[" ++
      "\x7b\"name\":\"a\",\"type\":\"IA\"\x7d]\x7d]\x7d"
    let files : Files :=
      { nodes := [(["a.json"], .file (some textA)), (["b.json"], .file (some textB))] }
    let a := "a.json: ok (namespace <none>, 1 interface(s), 0 enum(s))"
    let b := "b.json: ok (namespace <none>, 1 interface(s), 0 enum(s))"
    let outcome := run files ["check", "b.json", "a.json", "b.json"]
    let alone := run files ["check", "a.json", "b.json"]
    outcome.output = [a, b] ∧ outcome.errors.length = 2 ∧ outcome.status ≠ 0 ∧
      alone.status = 0 ∧ alone.output = [a, b] ∧ alone.errors = [] ∧
      (run files ["check", "b.json", "a.json", "b.json", "a.json"]).output = [a, b, a] ∧
      alone.LeavesOnly [a, b] := by
  intro textA textB files a b outcome alone
  have checked : ∀ path ∈ ["a.json", "b.json", "/idlbridge.toml"],
      Files.checkPath path = .ok () := by
    intro path member
    have plain : path.contains '\x00' = false := by
      simp only [List.mem_cons, List.not_mem_nil, or_false] at member
      rcases member with rfl | rfl | rfl <;> simp
    simp only [Files.checkPath, plain]
    simp only [List.mem_cons, List.not_mem_nil, or_false] at member
    rcases member with rfl | rfl | rfl <;> rfl
  have readA : files.read "a.json" = .ok textA := by
    rw [Files.read, checked "a.json" (by simp)]
    rfl
  have readB : files.read "b.json" = .ok textB := by
    rw [Files.read, checked "b.json" (by simp)]
    rfl
  have unset : files.read "/idlbridge.toml" = .error .notFound := by
    rw [Files.read, checked "/idlbridge.toml" (by simp)]
    rfl
  have plain : ∀ path ∈ ["b.json", "a.json", "b.json"], IsPlain path := by simp [IsPlain]
  let ready : Ready := ⟨.check ["b.json", "a.json", "b.json"], plainLogging false, none⟩
  have prepared : prepare files.read files.workingPath ["check", "b.json", "a.json", "b.json"] =
      .ok ready := by
    have discovered : Settings.discover? files.read files.workingPath = none := by
      have candidates : Settings.candidates files.workingPath = ["/idlbridge.toml"] := by
        decide +kernel
      simp [Settings.discover?, candidates, Settings.isFile, unset]
    rw [prepare, parse_check (by simp) plain]
    simp only [bind, Except.bind, settings, discovered]
    rfl
  have begins : Begins (.ofFiles files 0) ["b.json", "a.json", "b.json"] ready files.read :=
    ⟨prepared, fun _ => files.read, rfl, fun _ _ _ => rfl⟩
  let modelA : Model := { interfaces := [{ name := "IA" }] }
  let modelB : Model :=
    { interfaces := [{ name := "IB", properties := [{ name := "a", type := "IA" }] }] }
  have early : judge files.read [] "b.json" =
      .error "b.json: Unknown type 'IA' in property IB.a" := by
    rw [judge, readB]
    decide +kernel
  have first : judge files.read [] "a.json" = .ok (modelA, a) := by
    rw [judge, readA]
    decide +kernel
  have late : judge files.read ([] ++ [modelA]) "b.json" = .ok (modelB, b) := by
    rw [judge, readB]
    decide +kernel
  have found : verdicts files.read [] ["b.json", "a.json", "b.json"] =
      [.error "b.json: Unknown type 'IA' in property IB.a", .ok a, .ok b] := by
    rw [verdicts_of_error early, verdicts_of_ok first, verdicts_of_ok late]
    rfl
  obtain ⟨_, _, output, errors, succeeds, without, again, quiet⟩ :=
    check_judges_each_file (by simp) plain begins
  rw [found] at output errors succeeds without
  have kept : alone.status = 0 ∧ alone.output = outcome.output ∧ alone.errors = [] :=
    without (by simp [approvals, Except.toOption])
  obtain ⟨status, same, none⟩ := kept
  have same : alone.output = [a, b] := same.trans output
  refine ⟨output, ?_, ?_, status, same, none, ?_, ?_⟩
  · exact congrArg List.length errors
  · exact mt succeeds.mp (by simp [rejections])
  · have repeated := again ["b.json"] "a.json" ["b.json"] [] a rfl (by rw [found]; rfl)
    rw [found] at repeated
    exact repeated.2
  · have only : alone.LeavesOnly alone.output :=
      quiet (by decide) ["a.json", "b.json"] (by simp) (by simp)
    rwa [same] at only

end CommandLine

end ObjectBoundary
