import ObjectBoundary.Proofs.Entry.Agreement
import ObjectBoundary.Proofs.Marshal.RoundTrip
import ObjectBoundary.Proofs.Tasks.Restored

/-!
# Saving and loading

What a manager saves under a path any manager can load from it, as long as the file is left alone in
between. Loading gives back the content at the time of saving in new objects, and whoever has a
handle keeps the object behind it as it is.
-/

namespace ObjectBoundary

open Op State

/-- The two methods of a manager that take the path of a file. -/
inductive FileMethod where
  | save
  | load
  deriving DecidableEq, Repr

namespace FileMethod

def name : FileMethod → String
  | .save => "Save"
  | .load => "Load"

def symbol : FileMethod → String
  | .save => "ITaskManager_Save"
  | .load => "ITaskManager_Load"

def binding (method : FileMethod) : Binding :=
  ⟨method.symbol, .manager, method.name, .call [.handle] none⟩

end FileMethod

/-- A call of the method on a manager with the handle of a path, by its entry point or by name. -/
inductive Call.Asks (method : FileMethod) (h path : Handle) : Call → Prop where
  | typed : Asks method h path (.member method.binding h [.handle path])
  | byName {ws : List Wire} {count : Nat} (given : ws.take count = [.handle path]) (wanted : Bool) :
      Asks method h path (.invoke h (.text method.name) (some ws) count wanted)

variable {s t : State} {h k : Handle} {self ref : Ref} {m : Manager Ref} {path : String}
  {method : FileMethod} {call : Call}

theorem Call.Asks.exported (asks : call.Asks method h k) : call.Exported := by
  cases asks with
  | typed =>
    cases method with
    | save => exact .of_symbol "ITaskManager_Save" [.handle h, .handle k] rfl
    | load => exact .of_symbol "ITaskManager_Load" [.handle h, .handle k] rfl
  | @byName ws count given wanted =>
    exact .of_symbol "idlbridge_invoke" [.handle h, .text (.text method.name), .wires (some ws),
      .size count, .output wanted] rfl

namespace State

def text? (s : State) (ref : Ref) : Option String :=
  match s.heap.payload? ref with
  | some (.text content) => some content
  | _ => none

theorem text?_eq_some_iff {content : String} :
    s.text? ref = some content ↔ s.heap.payload? ref = some (.text content) := by
  unfold text?
  split <;> simp_all

/-- A live handle of a string. -/
def Spells (s : State) (h : Handle) (text : String) : Prop :=
  ∃ ref, s.handles.bound? h = some ref ∧ s.heap.payload? ref = some (.text text)

def Manages (s : State) (h : Handle) (self : Ref) (m : Manager Ref) : Prop :=
  s.handles.bound? h = some self ∧ s.heap.manager? self = some m

theorem Manages.payloadAt (manages : s.Manages h self m) :
    s.heap.payloadAt self.number = some (.manager m) :=
  Heap.manager?_eq_some_iff.mp manages.2

theorem Manages.tag_eq (manages : s.Manages h self m) (sound : s.Sound) :
    self.tag = .interface TaskModel.ids.manager :=
  (sound.heap.fits_of_holds (sound.has manages.1) manages.payloadAt).1

theorem Manages.registered (manages : s.Manages h self m) (sound : s.Sound) : s.Registered :=
  sound.registered (sound.has manages.1) (by rw [manages.tag_eq sound]; rfl)

theorem Spells.run_inbound (spells : s.Spells k path) (sound : s.Sound) :
    s.run (inbound (.handle k) .string) = (.ok (.str path), s) := by
  obtain ⟨ref, hb, hp⟩ := spells
  rw [Heap.payload?_eq_payloadAt] at hp
  have tag_eq : ref.tag = .string := sound.heap.fits_of_holds (sound.has hb) hp
  have returns : Returns s (.str path) .string (.handle k) s :=
    returns_handle rfl (by rw [tag_eq]; rfl) hb (run_typedContentOf_text tag_eq hp .string)
  exact returns.back

end State

/-! ### From the call to the method -/

namespace Op

variable {bad : Failure → State → Prop} {ok : State → Prop}

theorem run_target {id : InterfaceId} {d : InterfaceDescriptor}
    (hb : s.handles.bound? h = some ref) (tag_eq : ref.tag = .interface id)
    (found : s.registry.interface? id = some d) : s.run (target h id) = (.ok (ref, d), s) := by
  have resolved : s.handles.resolve h (some (.interface id)) = .ok ref :=
    HandleTable.resolve_eq_ok_iff.mpr ⟨hb, fun tag same => by cases same; exact tag_eq⟩
  simp only [target, run_bind, run_resolve, resolved, run_get, found, run_pure]

/-- A request for the method reaches it with the path, and there is no result to hand out. -/
theorem invoke_file_meets (sound : s.Sound) (manages : s.Manages h self m)
    (spells : s.Spells k path)
    (meets : (m.invoke self method.name [.str path]).Meets s (fun _ t => ok t) bad) :
    (Op.invoke h TaskModel.ids.manager method.name [.handle k]).Meets s
      (fun w t => w = .void ∧ ok t) bad := by
  have registered := manages.registered sound
  have found : s.registry.interface? TaskModel.ids.manager = some TaskModel.managerDescriptor := by
    rw [registered.registry_eq]
    rfl
  have declared : TaskModel.managerDescriptor.method? method.name =
      some ⟨method.name, [⟨"path", .string⟩], .void⟩ := by
    cases method <;> rfl
  refine meets_run (run_target manages.1 (manages.tag_eq sound) found) ?_
  have known : s.run (declaredMethod TaskModel.managerDescriptor method.name) =
      (.ok ⟨method.name, [⟨"path", .string⟩], .void⟩, s) := by
    rw [declaredMethod, declared]
    rfl
  refine meets_run known ?_
  have arguments : s.run (inboundArguments [.handle k] [⟨"path", .string⟩]) =
      (.ok [.str path], s) := by
    simp only [inboundArguments, run_bind, spells.run_inbound sound, run_pure]
  have called : (callMethod self method.name [.str path]).Meets s (fun _ t => ok t) bad :=
    meets_run (run_payload manages.payloadAt) meets
  exact meets_run arguments (called.bind fun value t h => meets_pure ⟨rfl, h⟩)

end Op

namespace Call

variable {bad : Failure → State → Prop} {ok : State → Prop}

/-- Both forms of the call answer that it succeeded when the method does. -/
theorem Asks.body_meets (asks : call.Asks method h k) (sound : s.Sound)
    (manages : s.Manages h self m) (spells : s.Spells k path)
    (meets : (m.invoke self method.name [.str path]).Meets s (fun _ t => ok t) bad) :
    call.body.Meets s (fun answer t => answer.reply = .bool true ∧ ok t) bad := by
  have invoked := invoke_file_meets sound manages spells meets
  cases asks with
  | typed =>
    have ran : (method.binding.run h [.handle k]).Meets s (fun _ t => ok t) bad :=
      meets_run (manages.registered sound).run_taskIds
        (invoked.bind fun w t h => meets_pure h.2)
    exact ran.bind fun found t h => by
      cases found <;> exact meets_pure ⟨rfl, h⟩
  | @byName ws count given wanted =>
    have asked := Binding.run_interfaceOf manages.1 (manages.tag_eq sound)
    have read : s.run (readArguments (some ws) count) = (.ok [.handle k], s) := by
      cases count with
      | zero => cases given
      | succ n =>
        rw [readArguments, if_neg (Nat.succ_ne_zero n), given]
        rfl
    refine meets_run asked (meets_run (run_pure s method.name) (meets_run read ?_))
    refine invoked.bind fun w t h => ?_
    obtain ⟨rfl, h⟩ := h
    cases wanted <;> exact meets_pure ⟨rfl, h⟩

/-- A call of a file method is guarded, and it is told apart from its failure by its answer. -/
theorem Asks.perform_eq (asks : call.Asks method h k) (s : State) (thread : Nat) :
    s.perform thread call = s.guarded thread ⟨.bool false, []⟩ call.body := by
  cases asks <;> rfl

end Call

namespace State

/-- Saving succeeds when the file can be written. -/
theorem perform_save (sound : s.Sound) (manages : s.Manages h self m) (spells : s.Spells k path)
    (asks : call.Asks .save h k) (thread : Nat) :
    let saved := s.perform thread call
    saved.1.reply = .bool true ∧ s.Saves path (s.heap.archive m) saved.2 ∨
      saved.1.reply = .bool false ∧
        ∃ cause, s.files.write path (Manager.print (s.heap.archive m)) = .error cause := by
  have saves : (m.invoke self "Save" [.str path]).Meets s.countCall
      (fun _ t => s.countCall.Saves path (s.heap.archive m) t) fun _ _ =>
        ∃ cause, s.files.write path (Manager.print (s.heap.archive m)) = .error cause :=
    meets_get (meets_run (run_pure _ path)
      ((Manager.save_saves m path).bind fun _ _ saves => meets_pure saves))
  have body := asks.body_meets sound.countCall manages spells saves
  rw [asks.perform_eq]
  rcases guarded_cases s thread ⟨.bool false, []⟩ call.body with
    ⟨a, t, hr, hg⟩ | ⟨e, t, hr, hg⟩
  · obtain ⟨reply, saves⟩ := body.ok_of_run hr
    rw [hg]
    exact .inl ⟨reply, saves.read, saves.heap_eq, saves.handles_eq⟩
  · rw [hg]
    exact .inr ⟨rfl, body.bad_of_run hr⟩

/-- Loading a file that is read as an archive succeeds. -/
theorem perform_load_of_parse (sound : s.Sound) (manages : s.Manages h self m)
    (spells : s.Spells k path) (asks : call.Asks .load h k) (thread : Nat) {text : String}
    {archive : Archive} (read : s.files.read path = .ok text)
    (parsed : Manager.parse path text = .ok archive) :
    let loaded := s.perform thread call
    loaded.1.reply = .bool true ∧ loaded.2.lastErrors thread = {} ∧
      s.Restocks self archive loaded.2 := by
  have registered : s.countCall.Registered := (manages.registered sound).of_eq rfl rfl rfl
  have loads : (m.invoke self "Load" [.str path]).Meets s.countCall
      (fun _ t => s.countCall.Restocks self archive t) fun _ _ => False :=
    meets_get (meets_run (run_pure _ path)
      ((Manager.load_restocks registered read parsed).bind
        fun _ _ restocks => meets_pure restocks))
  have body := asks.body_meets sound.countCall manages spells loads
  rw [asks.perform_eq]
  rcases guarded_cases s thread ⟨.bool false, []⟩ call.body with
    ⟨a, t, hr, hg⟩ | ⟨e, t, hr, hg⟩
  · obtain ⟨reply, restocks⟩ := body.ok_of_run hr
    rw [hg]
    exact ⟨reply, by simp [setLastError], restocks.handles_eq, restocks.stocked⟩
  · exact (body.bad_of_run hr).elim

/-- Loading what was saved succeeds. -/
theorem perform_load (sound : s.Sound) (manages : s.Manages h self m) (spells : s.Spells k path)
    (asks : call.Asks .load h k) (thread : Nat) {archive : Archive}
    (read : s.files.read path = .ok (Manager.print archive)) :
    let loaded := s.perform thread call
    loaded.1.reply = .bool true ∧ loaded.2.lastErrors thread = {} ∧
      s.Restocks self archive loaded.2 :=
  perform_load_of_parse sound manages spells asks thread read (Manager.parse_print path archive)

/-- The text of a record gives back the record. What was saved under a path is loaded from it, by
any manager and after whatever happened in between, as long as the path reads as it did after
saving. The objects that are listed then have numbers that no object had before. -/
theorem load_after_save (reachable : s.Reachable) :
    (∀ version archive, Json.decode Manager.ofJson (Manager.recordJson version archive).indented =
      .ok (version.toNat, archive)) ∧
    (∀ path archive, Manager.parse path (Manager.print archive) = .ok archive) ∧
    ∀ (thread : Nat) (h k : Handle) (self : Ref) (m : Manager Ref) (path : String) (call : Call),
      s.Manages h self m → s.Spells k path → call.Asks .save h k →
      let saved := s.perform thread call
      saved.1.reply = .bool true →
      ∀ t, saved.2.Leads t → t.files.read path = saved.2.files.read path →
      ∀ (thread' : Nat) (h' k' : Handle) (self' : Ref) (m' : Manager Ref) (call' : Call),
        t.Manages h' self' m' → t.Spells k' path → call'.Asks .load h' k' →
        let loaded := t.perform thread' call'
        loaded.1.reply = .bool true ∧ (loaded.2.lastErrors thread').code = .none ∧
        (∃ n, loaded.2.Manages h' self' n ∧ loaded.2.heap.archive n = s.heap.archive m ∧
          loaded.2.heap.ListsFrom t.heap.objects.length n) ∧
        ∀ g ref, t.handles.bound? g = some ref →
          loaded.2.handles.bound? g = some ref ∧
          (ref ≠ self' → loaded.2.heap.payload? ref = t.heap.payload? ref) := by
  refine ⟨Manager.decode_recordJson, Manager.parse_print, ?_⟩
  intro thread h k self m path call manages spells asks saved succeeds t leads untouched thread' h'
    k' self' m' call' manages' spells' asks' loaded
  have saves : s.Saves path (s.heap.archive m) saved.2 := by
    rcases perform_save reachable.sound manages spells asks thread with
      ⟨_, saves⟩ | ⟨failed, _⟩
    · exact saves
    · cases failed.symm.trans succeeds
  have soundSaved : saved.2.Sound := (advanced_perform reachable.sound thread asks.exported).sound
  have sound : t.Sound := (leads.advanced soundSaved).sound
  have sound' : loaded.2.Sound := (advanced_perform sound thread' asks'.exported).sound
  obtain ⟨reply, cleared, restocks⟩ :=
    perform_load sound manages' spells' asks' thread' (untouched.trans saves.read)
  have bound : ∀ g ref, t.handles.bound? g = some ref → loaded.2.handles.bound? g = some ref :=
    fun g ref hg => restocks.handles_eq ▸ hg
  refine ⟨reply, by rw [cleared], ?_, fun g ref hg => ⟨bound g ref hg, fun other => ?_⟩⟩
  · obtain ⟨n, hn, same, lists⟩ := restocks.content sound sound' manages'.1
    exact ⟨n, ⟨bound h' self' manages'.1, Heap.manager?_eq_some_iff.mpr hn⟩, same, lists⟩
  · rw [Heap.payload?_eq_payloadAt, Heap.payload?_eq_payloadAt]
    refine restocks.payloadAt_eq sound sound' manages'.1 hg fun number_eq => other ?_
    exact (sound.has hg).eq_of_number (sound.has manages'.1) number_eq

/-- A project with a name that needs escapes is saved by one manager and loaded by another. -/
theorem escaped_name_loads :
    let saver : Handle := ⟨0x100000001⟩
    let loader : Handle := ⟨0x100000002⟩
    let path : Handle := ⟨0x100000003⟩
    let name : Handle := ⟨0x100000004⟩
    let project : Handle := ⟨0x100000005⟩
    let createProject : Binding :=
      ⟨"ITaskManager_CreateProject", .manager, "CreateProject", .call [.handle] (some .handle)⟩
    let createTask : Binding :=
      ⟨"IProject_CreateTask", .project, "CreateTask", .call [.handle, .handle] (some .handle)⟩
    let s := performAll {} [(0, .createAs .manager), (0, .createAs .manager),
      (0, .createText (.text "tasks.json")), (0, .createText (.text "say \"hi\"\\\n")),
      (0, .member createProject saver [.handle name]),
      (0, .member createTask project [.handle name, .handle name])]
    let saved := s.perform 0 (.member FileMethod.save.binding saver [.handle path])
    let loaded := saved.2.perform 1 (.invoke loader (.text "Load") (some [.handle path]) 1 false)
    saved.1.reply = .bool true ∧ loaded.1.reply = .bool true ∧
      ∃ ref n, loaded.2.Manages loader ref n ∧
        (loaded.2.heap.archive n).projects.map (fun p => (p.name, p.tasks.map (·.title))) =
          [("say \"hi\"\\\n", ["say \"hi\"\\\n"])] := by
  intro saver loader path name project createProject createTask s saved loaded
  let first : Ref := ⟨0, .interface TaskModel.ids.manager⟩
  let second : Ref := ⟨1, .interface TaskModel.ids.manager⟩
  let m : Manager Ref := { projects := [⟨4, .interface TaskModel.ids.project⟩] }
  have facts : s.handles.bound? saver = some first ∧ s.heap.manager? first = some m ∧
      s.handles.bound? loader = some second ∧ s.heap.manager? second = some {} ∧
      s.handles.bound? path = some ⟨2, .string⟩ ∧
      s.text? ⟨2, .string⟩ = some "tasks.json" ∧
      s.files.nodes = [] ∧ s.files.working = [] ∧
      (s.heap.archive m).projects.map (fun p => (p.name, p.tasks.map (·.title))) =
          [("say \"hi\"\\\n", ["say \"hi\"\\\n"])] := by
    decide +kernel
  obtain ⟨hsaver, hm, hloader, hn, hpath, known, nodes, working, titles⟩ := facts
  have reachable : s.Reachable := by
    refine Leads.refl.performAll fun call hcall => ?_
    simp only [List.mem_cons, List.not_mem_nil, or_false] at hcall
    rcases hcall with rfl | rfl | rfl | rfl | rfl | rfl
    · exact .of_symbol "ITaskManager_Create" [] rfl
    · exact .of_symbol "ITaskManager_Create" [] rfl
    · exact .of_symbol "idlbridge_string_create" [.text _] rfl
    · exact .of_symbol "idlbridge_string_create" [.text _] rfl
    · exact .of_symbol "ITaskManager_CreateProject" [.handle _, .handle _] rfl
    · exact .of_symbol "IProject_CreateTask" [.handle _, .handle _, .handle _] rfl
  clear_value s
  have text : s.heap.payload? ⟨2, .string⟩ = some (.text "tasks.json") :=
    text?_eq_some_iff.mp known
  have spells : s.Spells path "tasks.json" := ⟨_, hpath, text⟩
  have written : ∀ text, ∃ files, s.files.write "tasks.json" text = .ok files := by
    have empty : s.files = {} := by
      cases files : s.files
      simp_all
    have checked : Files.checkPath "tasks.json" = .ok () := by
      have plain : "tasks.json".contains '\x00' = false := by simp
      rw [Files.checkPath, plain]
      rfl
    intro text
    rw [empty]
    simp only [Files.write, checked]
    exact ⟨_, rfl⟩
  have asks : Call.Asks .save saver path (.member FileMethod.save.binding saver [.handle path]) :=
    .typed
  have asks' : Call.Asks .load loader path
      (.invoke loader (.text "Load") (some [.handle path]) 1 false) := .byName rfl false
  obtain ⟨succeeds, saves⟩ : saved.1.reply = .bool true ∧
      s.Saves "tasks.json" (s.heap.archive m) saved.2 := by
    rcases perform_save reachable.sound ⟨hsaver, hm⟩ spells asks 0 with done | ⟨_, cause, refused⟩
    · exact done
    · obtain ⟨files, written⟩ := written (Manager.print (s.heap.archive m))
      cases written.symm.trans refused
  have manages' : saved.2.Manages loader second {} :=
    ⟨saves.handles_eq ▸ hloader, saves.heap_eq ▸ hn⟩
  have spells' : saved.2.Spells path "tasks.json" :=
    ⟨_, saves.handles_eq ▸ hpath, saves.heap_eq ▸ text⟩
  obtain ⟨reply, _, ⟨n, manages, same, _⟩, _⟩ := (load_after_save reachable).2.2 0 saver path first m
    "tasks.json" _ ⟨hsaver, hm⟩ spells asks succeeds saved.2 .refl rfl 1 loader path second {} _
    manages' spells' asks'
  exact ⟨succeeds, reply, second, n, manages, by rw [same]; exact titles⟩

end State

end ObjectBoundary
