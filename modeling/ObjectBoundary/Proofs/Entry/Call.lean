import Mathlib.Data.List.Nodup
import ObjectBoundary.Entry.Export
import ObjectBoundary.Proofs.Dispatch

/-!
# Calls across the boundary

Every entry point is found by its name. An exported call leaves a sound state behind, whether it
succeeds or fails, and no fault that it ends with speaks of an object that is gone. Once the task
model is registered, a call that fails is refused without a trace, or it makes an object for which
there was no handle left.
-/

namespace ObjectBoundary

open Op State

variable {s t u : State} {e : Failure}

namespace Export

/-- No two entry points have the same name. -/
theorem nodup_symbols : (all.map Export.symbol).Nodup := by decide +kernel

theorem ofSymbol?_symbol {entry : Export} (member : entry ∈ all) :
    ofSymbol? entry.symbol = some entry := by
  obtain ⟨other, found⟩ : ∃ other, ofSymbol? entry.symbol = some other :=
    Option.isSome_iff_exists.mp (List.find?_isSome.mpr ⟨entry, member, by simp⟩)
  have same : other.symbol = entry.symbol := by simpa using List.find?_some found
  rw [found, List.inj_on_of_nodup_map nodup_symbols (List.mem_of_find?_eq_some found) member same]

/-- Under its name an entry point makes its own call. -/
theorem callOf?_symbol {entry : Export} (member : entry ∈ all) (arguments : List Argument) :
    callOf? entry.symbol arguments = entry.call arguments := by
  rw [callOf?, ofSymbol?_symbol member, Option.bind_some]

theorem ofBinding_mem_all {b : Binding} (member : b ∈ Binding.all) : ofBinding b ∈ all :=
  List.mem_append_right _ (List.mem_map_of_mem member)

theorem mem_all_of_ofRole {role : Role} {entry : Export} (member : entry ∈ ofRole role) :
    entry ∈ all := by
  have listed : role ∈ Role.all := by cases role <;> decide
  have among : entry ∈ Role.all.flatMap ofRole := List.mem_flatMap.mpr ⟨role, listed, member⟩
  simp [all, among]

end Export

namespace Call

/-- The call comes from an exported entry point. -/
def Exported (call : Call) : Prop :=
  ∃ entry ∈ Export.all, ∃ arguments, entry.call arguments = some call

theorem Exported.of_symbol (symbol : String) (arguments : List Argument) {call : Call}
    (h : Export.callOf? symbol arguments = some call) : call.Exported := by
  obtain ⟨entry, hentry, hcall⟩ := Option.bind_eq_some_iff.mp h
  exact ⟨entry, List.mem_of_find?_eq_some hentry, arguments, hcall⟩

theorem exported_member {b : Binding} (member : b ∈ Binding.all) (h : Handle)
    (ws : List Wire) : (Call.member b h ws).Exported := by
  refine ⟨.ofBinding b, Export.ofBinding_mem_all member, .handle h :: ws.map .wire, ?_⟩
  simp [Export.ofBinding, Argument.toWire, Function.comp_def]

/-- The calls of the methods that make an object and hand it out. -/
def isMaker : Call → Bool
  | .invoke _ (.text method) _ _ _ => TaskModel.makers.contains method
  | .member binding _ _ => TaskModel.makers.contains binding.member
  | _ => false

end Call

namespace State

/-- A call has failed. -/
structure Fails (s : State) (maker : Bool) (e : Failure) (t : State) : Prop where
  advanced : s.Advanced t
  unnamed : e.toFault.namesObject = false
  refused : s.Registered →
    s.Refused e t ∨ maker = true ∧ ∃ n, e = .fault (.handleLimit n)

theorem Refused.fails (refused : s.Refused e t) (maker : Bool) : s.Fails maker e t :=
  ⟨refused.advanced, refused.unnamed, fun _ => .inl refused⟩

theorem Excused.fails {member : String} {maker : Bool} (excused : s.Excused member e t)
    (hmaker : member ∈ TaskModel.makers → maker = true) : s.Fails maker e t := by
  rcases excused with refused | ⟨hmember, ⟨n, rfl⟩, advanced⟩
  · exact refused.fails maker
  · exact ⟨advanced, rfl, fun _ => .inr ⟨hmaker hmember, n, rfl⟩⟩

theorem Ended.advanced {h : Handle} (ended : s.Ended h t) : s.Advanced t :=
  ⟨ended.sound, ended.kept.later⟩

theorem SoundWith.withModel {made : List Nat} (sound : s.SoundWith made) :
    s.withModel.SoundWith made :=
  ⟨sound.table, sound.has, sound.heap, .inl (registered_withModel s)⟩

end State

namespace Op

variable {α β : Type}

/-- The task model is found registered, or it is registered first, which fails no request in a sound
state. -/
theorem meets_taskIds {next : TaskIds → Op β} {maker : Bool} (sound : s.Sound)
    (h : ∀ t : State, t.Sound → t.Registered →
      (next TaskModel.ids).Meets t (fun _ u => t.Advanced u) (t.Fails maker)) :
    (taskIds >>= next).Meets s (fun _ u => s.Advanced u) (s.Fails maker) := by
  rcases sound.model with registered | ⟨unregistered, _⟩
  · exact meets_run registered.run_taskIds (h s sound registered)
  · refine meets_run unregistered.run_taskIds ?_
    refine (h s.withModel sound.withModel (registered_withModel s)).imp
      (fun _ u advanced => ⟨advanced.sound, advanced.later⟩) fun e u failed => ?_
    refine ⟨⟨failed.advanced.sound, failed.advanced.later⟩, failed.unnamed, fun registered => ?_⟩
    cases unregistered.taskIds_eq.symm.trans registered.taskIds_eq

theorem duplicate_meets (sound : s.Sound) (h : Handle) (expected : Option Tag) :
    (duplicate h expected).Meets s (fun h t => s.Lent (.handle h) t) s.Refused :=
  (resolve_holds sound h expected).bind_refused sound fun _ ⟨holds, _⟩ =>
    (issue_meets (.loosen sound _) holds).imp (fun _ _ h => h) fun _ _ h => h.1

theorem refcount_finds (h : Handle) (expected : Option Tag) :
    (refcount h expected).Finds s fun _ => True :=
  (resolve_finds h expected).bind fun _ _ => finds_get (finds_pure trivial)

end Op

namespace Call

variable {α : Type}

theorem ofHandle_meets {op : Op Handle} {bad : Failure → State → Prop}
    (h : op.Meets s (fun h t => s.Lent (.handle h) t) bad) :
    (ofHandle op).Meets s (fun _ t => s.Advanced t) bad :=
  h.bind fun _ _ lent => meets_pure lent.advanced

theorem ofDone_meets {op : Op α} {bad : Failure → State → Prop}
    (h : op.Meets s (fun _ t => s.Advanced t) bad) :
    (ofDone op).Meets s (fun _ t => s.Advanced t) bad :=
  h.bind fun _ _ advanced => meets_pure advanced

/-- A call that only reads. -/
theorem reads_meets {op : Op α} {answer : α → Answer} {wanted : α → Prop} (sound : s.Sound)
    (h : op.Finds s wanted) :
    (op >>= fun a => pure (answer a)).Meets s (fun _ t => s.Advanced t) s.Refused :=
  h.bind_refused sound fun _ _ => meets_pure (.refl sound)

theorem lends_meets {op : Op Wire} (h : op.Meets s s.Lent s.Refused) :
    (op >>= fun w => pure ⟨.bool true, [w]⟩ : Op Answer).Meets s (fun _ t => s.Advanced t)
      s.Refused :=
  h.bind fun _ _ lent => meets_pure lent.advanced

theorem releases_meets (sound : s.Sound) (h : Handle) (expected : Option Tag) :
    (ofDone (Op.release h expected)).Meets s (fun _ t => s.Advanced t) s.Refused :=
  ofDone_meets ((release_meets sound expected).ok_imp fun _ _ ended => ended.advanced)

theorem requireOutput_finds (wanted : Bool) : (requireOutput wanted).Finds s fun _ => True := by
  unfold requireOutput
  split
  · exact finds_pure trivial
  · exact finds_invalid _

theorem read_finds (what : String) (argument : TextArgument) :
    (check (argument.read what)).Finds s fun text => argument = .text text := by
  cases argument with
  | text value => exact finds_pure rfl
  | null | malformed => exact finds_fail rfl

theorem readArguments_finds (arguments : Option (List Wire)) (count : Nat) :
    (readArguments arguments count).Finds s fun _ => True := by
  unfold readArguments
  split
  · exact finds_pure trivial
  · split
    · exact finds_pure trivial
    · exact finds_invalid _

/-- The result of a method reaches the caller or is given back; neither can fail. -/
theorem deliver_meets {w : Wire} {bad : Failure → State → Prop} (lent : t.Lent w u)
    (wanted : Bool) : (deliver wanted w).Meets u (fun _ v => u.Advanced v) bad := by
  cases wanted with
  | true => exact meets_pure (.refl lent.sound)
  | false =>
    rcases lent.bound with ⟨hplain, _⟩ | ⟨h, ref, hw, _, hbound⟩
    · simp only [deliver, hplain]
      exact meets_pure (.refl lent.sound)
    · simp only [deliver, hw]
      have hb : u.handles.bound? h = some ref := by rw [hbound, if_pos rfl]
      obtain ⟨n, v, hrun, ended⟩ := run_release_live lent.sound hb
      exact meets_run hrun (meets_pure ended.advanced)

end Call

/-! ### Typed entry points -/

namespace Binding

/-- Whether the fixed kind of a result is the kind of the declared type. -/
def agrees (b : Binding) : Bool :=
  let declaration := TaskModel.registry.interface? (b.role.id TaskModel.ids)
  match b.access with
  | .get kind =>
    (declaration.bind (·.property? b.member)).all fun p => TaskModel.registry.kindOf p.ty = kind
  | .call _ (some kind) =>
    (declaration.bind (·.method? b.member)).all fun m =>
      TaskModel.registry.kindOf m.returns = kind
  | .set _ | .call _ none => true

theorem all_agree : ∀ b ∈ all, b.agrees := by decide +kernel

theorem expectKind_run {w : Wire} {kind : Kind} (h : w.kind? = some kind) :
    expectKind kind w = pure w := by
  unfold expectKind
  rw [if_pos h]

theorem run_meets {b : Binding} (hb : b ∈ all) (sound : s.Sound) (h : Handle) (ws : List Wire) :
    (b.run h ws).Meets s (fun _ t => s.Advanced t)
      (s.Fails (TaskModel.makers.contains b.member)) := by
  refine meets_taskIds sound fun t sound registered => ?_
  have agreed := all_agree b hb
  have hmaker : b.member ∈ TaskModel.makers → TaskModel.makers.contains b.member = true := by simp
  unfold agrees at agreed
  cases haccess : b.access with
  | get kind =>
    rw [haccess] at agreed
    have read := (getProperty_meets sound h (b.role.id TaskModel.ids) b.member).imp
      (fun _ _ h => h) fun e u refused => refused.fails (TaskModel.makers.contains b.member)
    refine read.bind fun w u ⟨lent, d, p, hd, hp, hkind⟩ => ?_
    rw [registered.registry_eq] at hd hkind
    rw [hd] at agreed
    simp only [Option.bind_some, hp, Option.all_some, decide_eq_true_eq] at agreed
    rw [expectKind_run (agreed ▸ hkind)]
    exact meets_pure lent.advanced
  | set kind =>
    refine Meets.bind ((setProperty_meets sound h _ b.member _).imp (fun _ _ h => h)
      fun e u refused => refused.fails _) fun _ u advanced => ?_
    exact meets_pure advanced
  | call parameters result =>
    rw [haccess] at agreed
    have called := (invoke_meets sound h (b.role.id TaskModel.ids) b.member ws).imp
      (fun _ _ h => h) fun e u excused => excused.fails hmaker
    cases result with
    | none =>
      exact called.bind fun w u ⟨⟨v, advanced, lent⟩, _⟩ =>
        meets_pure (advanced.trans lent.advanced)
    | some kind =>
      refine called.bind fun w u ⟨⟨v, advanced, lent⟩, d, m, hd, hm, hkind⟩ => ?_
      rw [registered.registry_eq] at hd hkind
      rw [hd] at agreed
      simp only [Option.bind_some, hm, Option.all_some, decide_eq_true_eq] at agreed
      rw [expectKind_run (agreed ▸ hkind)]
      exact meets_pure (advanced.trans lent.advanced)

end Binding

namespace Op

/-- A call that is about the task behind a handle. -/
theorem nativeTask_meets {β : Type} {next : Ref × Task → Op β} {maker : Bool} (sound : s.Sound)
    (h : Handle)
    (hnext : ∀ (t : State) ref task, t.Sound → t.heap.Holds ref →
      t.heap.payloadAt ref.number = some (.task task) →
      (next (ref, task)).Meets t (fun _ u => t.Advanced u) t.Refused) :
    (nativeTask h >>= next).Meets s (fun _ u => s.Advanced u) (s.Fails maker) := by
  unfold nativeTask
  rw [bind_assoc]
  refine meets_taskIds sound fun t sound _ => ?_
  have fails : ∀ e : Failure, e.toFault.namesObject = false → t.Fails maker e t :=
    fun e unnamed => (Refused.refl sound unnamed).fails maker
  rw [bind_assoc]
  refine (resolve_holds sound h _).bind_meets fails fun ref ⟨holds, _⟩ => ?_
  rw [bind_assoc]
  refine meets_get ?_
  split
  · next task htask =>
    rw [pure_bind]
    exact (hnext t ref task sound holds (Heap.task?_eq_some_iff.mp htask)).imp (fun _ _ h => h)
      fun e u refused => refused.fails maker
  · exact meets_fail_bind (fails _ rfl)

theorem tagCount_meets {maker : Bool} (sound : s.Sound) (h : Handle) :
    (tagCount h).Meets s (fun _ t => s.Advanced t) (s.Fails maker) :=
  nativeTask_meets sound h fun _ _ _ sound _ _ => meets_pure (.refl sound)

theorem tagItem_meets {maker : Bool} (sound : s.Sound) (h : Handle) (index : Nat) :
    (tagItem h index).Meets s (fun _ t => s.Advanced t) (s.Fails maker) := by
  refine nativeTask_meets sound h fun t ref task sound _ _ => ?_
  simp only
  split
  · exact (issueText_meets sound _).ok_imp fun _ _ lent => lent.advanced
  · exact meets_fail (.refl sound rfl)

theorem clearTags_meets {maker : Bool} (sound : s.Sound) (h : Handle) :
    (clearTags h).Meets s (fun _ t => s.Advanced t) (s.Fails maker) := by
  refine nativeTask_meets sound h fun t ref task sound holds hp => ?_
  have fits : ref.tag = .interface TaskModel.ids.task := sound.heap.fits_of_holds holds.has hp
  exact replace_meets sound holds fits fun r hr => by cases hr

theorem addTag_meets {maker : Bool} (sound : s.Sound) (h value : Handle) :
    (addTag h value).Meets s (fun _ t => s.Advanced t) (s.Fails maker) := by
  refine nativeTask_meets sound h fun t ref task sound holds hp => ?_
  have fits : ref.tag = .interface TaskModel.ids.task := sound.heap.fits_of_holds holds.has hp
  refine (readText_finds sound value).bind_refused sound fun text _ => ?_
  exact replace_meets sound holds fits fun r hr => by cases hr

end Op

namespace Call

def isMember : Call → Bool
  | .member _ _ _ => true
  | _ => false

/-- Only the entry points of bindings make such calls. -/
theorem not_isMember_of_plain {entry : Export} (hentry : entry ∈ Export.general ++
    Export.ofStrings ++ Export.ofCollections ++ Export.ofSpace ++ Role.all.flatMap Export.ofRole ++
      Export.ofTags) {arguments : List Argument} {call : Call}
    (hcall : entry.call arguments = some call) : call.isMember = false := by
  simp only [Export.general, Export.ofStrings, Export.ofCollections, Export.ofSpace, Role.all,
    List.flatMap_cons, List.flatMap_nil, Export.ofRole, Export.ofTags, List.cons_append,
    List.nil_append, List.append_nil, List.mem_cons, List.not_mem_nil, or_false] at hentry
  repeat' rcases hentry with rfl | hentry
  all_goals
    simp only [Export.plain, Export.onHandle, Export.onText, Export.onWire, Export.itemOf,
      Export.nextEntryOf, Export.nextMemberOf] at hcall
  all_goals first
    | (cases hcall; rfl)
    | (split at hcall <;> first | (cases hcall; rfl) | cases hcall)

/-- The typed entry points are those of the task model. -/
theorem mem_of_exported {b : Binding} {h : Handle} {ws : List Wire}
    (exported : (Call.member b h ws).Exported) : b ∈ Binding.all := by
  obtain ⟨entry, hentry, arguments, hcall⟩ := exported
  rcases List.mem_append.mp hentry with hplain | htyped
  · cases not_isMember_of_plain hplain hcall
  · obtain ⟨binding, hbinding, rfl⟩ := List.mem_map.mp htyped
    simp only [Export.ofBinding] at hcall
    split at hcall
    · cases hcall
      exact hbinding
    · cases hcall

/-- A call that needs the places of the task model for its one request. -/
theorem ofTaskIds_meets {α : Type} {op : TaskIds → Op α} {answer : α → Answer} {maker : Bool}
    (sound : s.Sound)
    (h : ∀ t : State, t.Sound →
      (op TaskModel.ids).Meets t (fun _ u => t.Advanced u) t.Refused) :
    ((taskIds >>= op) >>= fun a => pure (answer a)).Meets s (fun _ t => s.Advanced t)
      (s.Fails maker) := by
  have called : (taskIds >>= op).Meets s (fun _ t => s.Advanced t) (s.Fails maker) :=
    meets_taskIds sound fun t sound _ =>
      (h t sound).imp (fun _ _ h => h) fun e u refused => refused.fails maker
  exact called.bind fun _ _ advanced => meets_pure advanced

/-- What an exported call does to a sound state. -/
theorem body_meets (sound : s.Sound) (call : Call) (exported : call.Exported) :
    call.body.Meets s (fun _ t => s.Advanced t) (s.Fails call.isMaker) := by
  have plain : ∀ {op : Op Answer}, op.Meets s (fun _ t => s.Advanced t) s.Refused →
      op.Meets s (fun _ t => s.Advanced t) (s.Fails call.isMaker) :=
    fun h => h.imp (fun _ _ h => h) fun e t refused => refused.fails _
  cases call with
  | startUp =>
    exact meets_modify (meets_pure ⟨sound.of_eq rfl rfl rfl rfl rfl, Heap.Later.refl _⟩)
  | cleanUp | lastErrorText | lastErrorCode | clearLastError => exact meets_pure (.refl sound)
  | liveHandles => exact meets_get (meets_pure (.refl sound))
  | create interface =>
    refine plain (ofHandle_meets ?_)
    refine (read_finds _ interface).bind_refused sound fun name _ => meets_get ?_
    split
    · next d _ => exact createObject_meets sound d.id
    · exact meets_invalid (.refl sound rfl)
  | addRef h => exact plain (ofHandle_meets (duplicate_meets sound h none))
  | release h => exact plain (releases_meets sound h none)
  | refcount h => exact plain (reads_meets sound (refcount_finds h none))
  | getProperty h name wanted =>
    refine plain ((interfaceOf_finds h).bind_refused sound fun id _ => ?_)
    refine (read_finds _ name).bind_refused sound fun name _ => ?_
    refine (requireOutput_finds wanted).bind_refused sound fun _ _ => ?_
    exact lends_meets ((getProperty_meets sound h id name).ok_imp fun _ _ h => h.1)
  | setProperty h name value =>
    refine plain (ofDone_meets ?_)
    refine (interfaceOf_finds h).bind_refused sound fun id _ => ?_
    refine (read_finds _ name).bind_refused sound fun name _ => ?_
    exact setProperty_meets sound h id name value
  | invoke h method arguments count wanted =>
    have fails : ∀ e : Failure, e.toFault.namesObject = false →
        s.Fails (isMaker (.invoke h method arguments count wanted)) e s :=
      fun e unnamed => (Refused.refl sound unnamed).fails _
    refine (interfaceOf_finds h).bind_meets fails fun id _ => ?_
    refine (read_finds _ method).bind_meets fails fun name hname => ?_
    refine (readArguments_finds arguments count).bind_meets fails fun ws _ => ?_
    subst hname
    refine ((invoke_meets sound h id name ws).imp (fun _ _ h => h) fun e t excused =>
      excused.fails (by simp [isMaker])).bind fun w u ⟨⟨t, advanced, lent⟩, _⟩ => ?_
    exact (deliver_meets lent wanted).ok_imp fun _ _ h =>
      (advanced.trans lent.advanced).trans h
  | createText text =>
    refine plain (ofHandle_meets ?_)
    exact (read_finds _ text).bind_refused sound fun text _ => issueText_meets sound text
  | textValue h => exact plain (reads_meets sound (readText_finds sound h))
  | textLength h =>
    have length : (do return (← readText h).utf8ByteSize : Op Nat).Finds s fun _ => True :=
      (readText_finds sound h).bind fun _ _ => finds_pure trivial
    exact plain (reads_meets sound length)
  | copyText h =>
    refine plain (ofHandle_meets ?_)
    exact (readText_finds sound h).bind_refused sound fun text _ => issueText_meets sound text
  | releaseText h => exact plain (releases_meets sound h _)
  | newCollection kind => exact plain (ofHandle_meets (newCollection_meets sound kind))
  | countItems kind h => exact plain (reads_meets sound (countItems_finds sound h kind))
  | releaseCollection kind h => exact plain (releases_meets sound h _)
  | push h value => exact plain (ofDone_meets (pushItem_meets sound h value))
  | insertMember h value =>
    exact plain ((insertMember_meets sound h value).bind fun _ _ h => meets_pure h)
  | insertEntry h key value => exact plain (ofDone_meets (insertEntry_meets sound h key value))
  | item h index wanted =>
    refine plain ((requireOutput_finds wanted).bind_refused sound fun _ _ => ?_)
    exact lends_meets (arrayItem_meets sound h index)
  | nextEntry h keyWanted valueWanted =>
    refine plain ((requireOutput_finds _).bind_refused sound fun _ _ => ?_)
    refine (nextEntry_meets sound h).bind fun found t advanced => ?_
    split
    · exact meets_pure advanced
    · exact meets_pure advanced
  | nextMember h wanted =>
    refine plain ((requireOutput_finds wanted).bind_refused sound fun _ _ => ?_)
    refine (nextMember_meets sound h).bind fun found t advanced => ?_
    split
    · exact meets_pure advanced
    · exact meets_pure advanced
  | reset kind h => exact plain (ofDone_meets (resetCursor_meets sound h kind))
  | createAs role =>
    refine ofTaskIds_meets sound fun t sound => ?_
    exact (createObject_meets sound (role.id TaskModel.ids)).ok_imp fun _ _ lent => lent.advanced
  | addRefAs role h =>
    refine ofTaskIds_meets sound fun t sound => ?_
    exact (duplicate_meets sound h _).ok_imp fun _ _ lent => lent.advanced
  | releaseAs role h =>
    refine ofTaskIds_meets sound fun t sound => ?_
    exact (release_meets sound _).ok_imp fun _ _ ended => ended.advanced
  | member b h ws =>
    refine (Binding.run_meets (mem_of_exported exported) sound h ws).bind fun found t advanced => ?_
    split
    · exact meets_pure advanced
    · exact meets_pure advanced
  | tagCount h => exact (tagCount_meets sound h).bind fun _ _ h => meets_pure h
  | tagItem h index => exact (tagItem_meets sound h index).bind fun _ _ h => meets_pure h
  | clearTags h => exact ofDone_meets (clearTags_meets sound h)
  | addTag h value => exact ofDone_meets (addTag_meets sound h value)

end Call

end ObjectBoundary
