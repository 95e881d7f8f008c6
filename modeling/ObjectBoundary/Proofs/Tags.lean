import ObjectBoundary.Proofs.Filling
import ObjectBoundary.Proofs.Setters

/-!
# Tags one at a time

Counting, reading, clearing and adding tags one at a time comes to the same as reading and setting
them as an array: the same tags, the same strings, the same errors.
-/

namespace ObjectBoundary

open Op State

def Binding.getTags : Binding := ⟨"ITask_Gettags", .task, "tags", .get .handle⟩

def Binding.setTags : Binding := ⟨"ITask_Settags", .task, "tags", .set .handle⟩

/-- The handle of the string that a call gives, as its result or in its output. -/
def Answer.string? : Answer → Option Handle
  | ⟨.handle h, []⟩ => if h.isNull then none else some h
  | ⟨.bool true, [w]⟩ => w.handle?
  | _ => none

namespace State

variable {s t : State} {h a : Handle} {ref r : Ref} {task : Task} {c : Collection} {thread : Nat}
  {index : Nat} {texts : List String}

/-- How a call that gives a string has ended: with a text, or with a recorded error. -/
def Yields (done : Answer × State) (thread : Nat) : Except LastError String → Prop
  | .ok text => ∃ h, done.1.string? = some h ∧ (done.2.lastErrors thread).code = .none ∧
      done.2.content? (.handle h) = some (.held (.str text))
  | .error e => done.1.string? = none ∧ done.2.lastErrors thread = e ∧ e.code ≠ .none

theorem Yields.congr {done other : Answer × State} {outcome : Except LastError String}
    (yields : Yields done thread outcome) (string_eq : other.1.string? = done.1.string?)
    (state_eq : other.2 = done.2) : Yields other thread outcome := by
  unfold Yields at yields ⊢
  rwa [string_eq, state_eq]

/-- What reading one of several texts has to end with when there is room. -/
def textAt (texts : List String) (index : Nat) : Except LastError String :=
  match texts[index]? with
  | some text => (Text.checkNul text).mapError .ofFault
  | none => .error (.ofFault (.indexOutOfBounds index texts.length))

/-! ### Reading -/

theorem run_tagItem (sound : s.Sound) (hb : s.handles.bound? h = some ref)
    (held : s.heap.payloadAt ref.number = some (.task task)) (index : Nat) :
    s.run (tagItem h index) =
      match task.tags[index]? with
      | some tag => s.run (issueText tag)
      | none => (.error (.fault (.indexOutOfBounds index task.tags.length)), s) := by
  unfold tagItem
  rw [run_bind, run_nativeTask sound hb held]
  dsimp only
  cases task.tags[index]? <;> rfl

/-- An item of an array of texts is read as a tag is. -/
theorem run_arrayItem (behind : s.Behind a r c) (kind_eq : c.kind = .array)
    (entries_eq : c.entries = texts.map fun text => .item (.str text)) (index : Nat) :
    s.run (arrayItem a index) =
      match texts[index]? with
      | some text => s.run (issueText text >>= fun h => pure (Wire.handle h))
      | none => (.error (.fault (.indexOutOfBounds index texts.length)), s) := by
  have ⟨sound, typed, bound, held⟩ := behind
  unfold arrayItem
  rw [run_bind, run_collection sound bound held kind_eq]
  dsimp only
  rw [run_bind, run_check]
  cases found : texts[index]? with
  | none =>
    have missing : c.item index = .error (.indexOutOfBounds index texts.length) := by
      simp [Collection.item, Collection.count, entries_eq, found]
    rw [missing]
    rfl
  | some text =>
    have there : c.item index = .ok (.str text) := by
      simp [Collection.item, entries_eq, found, Entry.item]
    have member : Entry.item (.str text) ∈ c.entries := by
      rw [entries_eq]
      exact List.mem_map_of_mem (List.mem_of_getElem? found)
    have whole : c.WellTyped s.registry := typed _ _ held
    rw [there]
    cases elem : c.elemTy with
    | none => rfl
    | some ty =>
      -- A text is of no declared type but that of strings.
      cases whole.values ty elem _ member with
      | str => rfl

/-- A tag is read exactly when there is a handle for it and nothing else is wrong. -/
theorem tagItem_exact (sound : s.Sound) (hb : s.handles.bound? h = some ref)
    (held : s.heap.payloadAt ref.number = some (.task task)) (index : Nat) :
    (tagItem h index).Meets s
      (fun g t => s.Grants 1 ∧ g.isNull = false ∧ ∃ text, textAt task.tags index = .ok text ∧
        t.content? (.handle g) = some (.held (.str text)))
      fun e _ => s.Grants 1 → textAt task.tags index = .error (.ofFault e.toFault) := by
  refine meets_run (run_nativeTask sound hb held) ?_
  dsimp only
  cases found : task.tags[index]? with
  | none =>
    refine meets_fail fun _ => ?_
    simp only [textAt, found]
    rfl
  | some tag =>
    cases checked : Text.checkNul tag with
    | error fault =>
      simp only [issueText, checked]
      refine meets_fail_bind fun _ => ?_
      simp only [textAt, found, checked]
      rfl
    | ok content =>
      obtain ⟨clean, content_eq⟩ := Text.checkNul_eq_ok_iff.mp checked
      refine ((issueText_gives sound.table tag).and (issueText_meets sound tag)).imp ?_ ?_
      case refine_2 => exact fun e t failed granted => absurd ⟨clean, granted⟩ failed.1.1
      rintro g t ⟨⟨⟨_, granted⟩, _, shows⟩, lent⟩
      obtain ⟨r, p, ⟨k, same, bound⟩, rest⟩ := id shows
      have same : g = k := congrArg Wire.handleBits same
      subst same
      have live := lent.sound.table.ne_null_of_given (lent.sound.table.given_of_bound bound)
      refine ⟨granted, live, tag, ?_, shows.content?_str⟩
      simp only [textAt, found, checked]
      exact congrArg Except.ok content_eq

/-- The request for an item makes the request for the tag. -/
theorem run_item (behind : s.Behind a r c) (kind_eq : c.kind = .array)
    (entries_eq : c.entries = task.tags.map fun text => .item (.str text))
    (hb : s.handles.bound? h = some ref)
    (held : s.heap.payloadAt ref.number = some (.task task)) (index : Nat) :
    s.run (Call.item a index true).body =
      s.run (tagItem h index >>= fun g => pure ⟨.bool true, [.handle g]⟩) := by
  simp only [Call.body, Call.requireOutput, if_true, run_bind, run_pure]
  rw [run_arrayItem behind kind_eq entries_eq, run_tagItem behind.sound hb held]
  cases task.tags[index]? with
  | none => rfl
  | some tag =>
    dsimp only
    rw [run_bind]
    cases hr : s.run (issueText tag) with
    | mk result t => cases result <;> rfl

/-- An item of the array of all tags is read as the tag is: with the same string or the same error,
and into the same state. -/
theorem perform_item (behind : s.Behind a r c) (kind_eq : c.kind = .array)
    (entries_eq : c.entries = task.tags.map fun text => .item (.str text))
    (hb : s.handles.bound? h = some ref)
    (held : s.heap.payloadAt ref.number = some (.task task)) (thread index : Nat) :
    let tag := s.perform thread (.tagItem h index)
    let item := s.perform thread (.item a index true)
    item.1.string? = tag.1.string? ∧ item.2 = tag.2 := by
  have same := run_item (s := s.countCall)
    ⟨behind.sound.countCall, behind.typed, behind.bound, behind.payload⟩ kind_eq entries_eq hb held
    index
  have exact := tagItem_exact behind.sound.countCall hb held index
  simp only [perform, guarded, same]
  simp only [Call.body, Call.ofHandle, run_bind, run_pure]
  cases hr : s.countCall.run (tagItem h index) with
  | mk result t =>
    cases result with
    | ok g =>
      have live := (exact.ok_of_run hr).2.1
      exact ⟨by simp [Answer.string?, live, Wire.handle?, Wire.kind?_handle], rfl⟩
    | error e => exact ⟨rfl, rfl⟩

theorem yields_tagItem (sound : s.Sound) (hb : s.handles.bound? h = some ref)
    (held : s.heap.payloadAt ref.number = some (.task task)) (thread index : Nat) :
    ∃ outcome, Yields (s.perform thread (.tagItem h index)) thread outcome ∧
      (s.Grants 1 → outcome = textAt task.tags index) := by
  have exact := tagItem_exact sound.countCall hb held index
  simp only [perform, guarded, Call.body, Call.ofHandle, run_bind, run_pure]
  cases hr : s.countCall.run (tagItem h index) with
  | mk result t =>
    cases result with
    | ok g =>
      obtain ⟨_, live, text, outcome, content⟩ := exact.ok_of_run hr
      exact ⟨.ok text, ⟨g, by simp [Answer.string?, live], by simp [setLastError], content⟩,
        fun _ => outcome.symm⟩
    | error e =>
      refine ⟨.error (.ofFault e.toFault), ⟨rfl, by simp [recordFailure, setLastError],
        e.toFault.code_ne_none⟩, fun granted => (exact.bad_of_run hr granted).symm⟩

/-- All tags are given exactly when there is a handle for their array. -/
theorem perform_getTags (sound : s.Sound) (hb : s.handles.bound? h = some ref)
    (held : s.heap.payloadAt ref.number = some (.task task)) (thread : Nat) :
    let got := s.perform thread (.member .getTags h [])
    (s.Grants 1 ∧ ∃ a r c t, got = (⟨.handle a, []⟩, t.setLastError thread {}) ∧
        s.countCall.Lent (.handle a) t ∧ s.Spends 1 t ∧ t.handles.bound? a = some r ∧
        t.heap.payloadAt r.number = some (.collection c) ∧ c.kind = .array ∧
        c.entries = task.tags.map fun text => .item (.str text)) ∨
      ¬ s.Grants 1 ∧ (got.2.lastErrors thread).code ≠ .none := by
  intro got
  have tag_eq : ref.tag = .interface TaskModel.ids.task :=
    sound.heap.fits_of_holds (sound.has hb) held
  have read : (Payload.task task).Reads "tags" (.array (task.tags.map .str)) := .task rfl
  have gives := Call.getter_gives (b := .getTags) sound.countCall (by decide +kernel) rfl hb tag_eq
    (run_readProperty_of_reads held read)
  rcases guarded_cases s thread ⟨.handle .null, []⟩ (Call.member .getTags h []).body with
    ⟨a, t, hr, hg⟩ | ⟨e, t, hr, hg⟩
  · obtain ⟨⟨_, granted⟩, spends, w, rfl, _, shows, lent⟩ := gives.ok_of_run hr
    obtain ⟨r, p, ⟨a, rfl, bound⟩, _, content, copies⟩ := shows
    cases p with
    | collection c =>
      obtain ⟨kind_eq, entries_eq⟩ := Prod.mk.inj (Option.some.inj copies)
      refine .inl ⟨granted, a, r, c, t, hg, lent, ?_, bound, content, kind_eq.symm, ?_⟩
      · exact ⟨spends.room_eq, spends.live_eq, spends.options_eq⟩
      · simp [← entries_eq]
    | text content => cases copies
    | _ => exact copies.elim
  · have got_eq : got = _ := hg
    rw [got_eq]
    exact .inr ⟨fun granted => gives.bad_of_run hr ⟨nofun, granted⟩,
      code_recordFailure_ne_none t thread e⟩

theorem perform_tagCount (sound : s.Sound) (hb : s.handles.bound? h = some ref)
    (held : s.heap.payloadAt ref.number = some (.task task)) (thread : Nat) :
    (s.perform thread (.tagCount h)).1 = ⟨.size task.tags.length, []⟩ := by
  have native := run_nativeTask sound.countCall hb held
  simp only [perform, guarded, Call.body, Call.ofSize, Op.tagCount, run_bind, native, run_pure]

theorem perform_countItems (behind : s.Behind a r c) (thread : Nat) :
    (s.perform thread (.countItems c.kind a)).1 = ⟨.size c.count, []⟩ := by
  have found := run_collection (s := s.countCall) behind.sound.countCall behind.bound
    behind.payload rfl
  simp only [perform, guarded, Call.body, Call.ofSize, Op.countItems, run_bind, found, run_pure]

/-! ### Setting -/

/-- A task behind a live handle, and texts behind others. -/
structure Stage (s : State) (h : Handle) (ref : Ref) (task : Task) (words : List (Nat × Handle))
    (texts : List String) : Prop where
  sound : s.Sound
  bound : s.handles.bound? h = some ref
  held : s.heap.payloadAt ref.number = some (.task task)
  spelled : List.Forall₂ (fun word text => s.Spells word.2 text) words texts

variable {words : List (Nat × Handle)} {task' : Task} {p : Payload}

/-- The task changes, and all texts stay. -/
theorem Stage.update (stage : s.Stage h ref task words texts) (task' : Task) (thread : Nat) :
    (s.afterReplace thread ref (.task task')).Stage h ref task' words texts := by
  have ⟨sound, bound, held, spelled⟩ := stage
  have fits : (Payload.task task').Fits ref.tag :=
    sound.heap.fits_of_holds (p := .task task) (sound.has bound) held
  obtain ⟨sound', held'⟩ := sound.afterReplace bound fits (fun _ none => by cases none) thread
  exact ⟨sound', bound, held', spelled.imp fun _ _ spells =>
    spells.afterReplace sound' held nofun⟩

theorem Stage.perform_clearTags (stage : s.Stage h ref task words texts) (thread : Nat) :
    s.perform thread (.clearTags h) =
      (⟨.bool true, []⟩, s.afterReplace thread ref (.task { task with tags := [] })) := by
  refine perform_replaces rfl ?_
  have native := run_nativeTask stage.sound.countCall stage.bound stage.held
  simp only [Call.body, Call.ofDone, Op.clearTags, run_bind, native, run_replace, run_pure]

theorem Stage.perform_addTag {k : Handle} {text : String}
    (stage : s.Stage h ref task words texts) (spells : s.Spells k text) (thread : Nat) :
    s.perform thread (.addTag h k) =
      (⟨.bool true, []⟩, s.afterReplace thread ref (.task (task.addTag text))) := by
  refine perform_replaces rfl ?_
  have native := run_nativeTask stage.sound.countCall stage.bound stage.held
  have content : s.countCall.Spells k text := spells
  simp only [Call.body, Call.ofDone, Op.addTag, run_bind, native,
    content.run_readText stage.sound.countCall, run_replace, run_pure]

/-- Tags are added in order. -/
theorem Stage.addAll (stage : s.Stage h ref task words texts) :
    (s.performAll (words.map fun word => (word.1, .addTag h word.2))).heap.payloadAt ref.number =
      some (.task { task with tags := task.tags ++ texts }) := by
  induction words generalizing s task texts with
  | nil =>
    cases stage.spelled
    rw [List.append_nil]
    exact stage.held
  | cons word words ih =>
    have ⟨sound, bound, held, spelled⟩ := stage
    cases spelled with
    | @cons _ text _ texts spells spelled =>
      have rest : s.Stage h ref task words texts := ⟨sound, bound, held, spelled⟩
      have added := ih (rest.update (task.addTag text) word.1)
      rw [List.map_cons, performAll, stage.perform_addTag spells word.1]
      simpa [Task.addTag] using added

/-- Clearing and adding leaves these tags. -/
theorem Stage.clear_addAll (stage : s.Stage h ref task words texts) (thread : Nat) :
    (s.performAll ((thread, .clearTags h) ::
      words.map fun word => (word.1, .addTag h word.2))).heap.payloadAt ref.number =
        some (.task { task with tags := texts }) := by
  have added := (stage.update { task with tags := [] } thread).addAll
  rw [performAll, stage.perform_clearTags thread]
  simpa using added

/-- An array to which some of the texts have been pushed. -/
structure Loading (s : State) (h : Handle) (ref : Ref) (task : Task) (words : List (Nat × Handle))
    (texts : List String) (a : Handle) (r : Ref) (pushed : List String) : Prop
    extends s.Stage h ref task words texts where
  array : s.handles.bound? a = some r
  content : s.heap.payloadAt r.number = some (.collection (.ofTexts pushed))

/-- One more text is pushed. -/
theorem Loading.push {word : Nat × Handle} {text : String} {pushed : List String}
    (loading : s.Loading h ref task (word :: words) (text :: texts) a r pushed) :
    (s.perform word.1 (.push a (.handle word.2))).2.Loading h ref task words texts a r
      (pushed ++ [text]) := by
  have ⟨⟨sound, bound, held, spelled⟩, array, content⟩ := loading
  obtain ⟨spells, spelled⟩ := List.forall₂_cons.mp spelled
  have tag_eq := (sound.heap.fits_of_holds (sound.has array) content).1
  have unowned := Collection.refs_ofTexts (pushed ++ [text])
  have fits : (Payload.collection (.ofTexts (pushed ++ [text]))).Fits r.tag :=
    ⟨tag_eq, fun _ member => by rw [unowned] at member; cases member⟩
  obtain ⟨sound', content'⟩ := sound.afterReplace array fits
    (fun _ (member : _ ∈ Collection.refs _) => by rw [unowned] at member; cases member) word.1
  rw [perform_push sound array content rfl rfl spells word.1, Collection.ofTexts_concat]
  refine ⟨⟨sound', bound, ?_, spelled.imp fun _ _ spells =>
    spells.afterReplace sound' content nofun⟩, array, content'⟩
  refine (payloadAt_afterReplace sound' content bound ?_).trans held
  rw [held]
  nofun

theorem Loading.pushAll {pushed : List String}
    (loading : s.Loading h ref task words texts a r pushed) :
    (s.performAll (words.map fun word => (word.1, .push a (.handle word.2)))).Loading h ref task
      [] [] a r (pushed ++ texts) := by
  induction words generalizing s texts pushed with
  | nil =>
    cases loading.spelled
    rw [List.append_nil]
    exact loading
  | cons word words ih =>
    cases texts with
    | nil => cases loading.spelled
    | cons text texts =>
      have rest := ih loading.push
      rw [List.append_assoc, List.singleton_append] at rest
      exact rest

/-- Lending a value changes nothing on the stage. -/
theorem Stage.lent {w : Wire} (stage : s.Stage h ref task words texts) (lent : s.Lent w t) :
    t.Stage h ref task words texts :=
  ⟨lent.sound, lent.bound_of stage.bound, lent.grown.payloadAt_eq stage.held,
    stage.spelled.imp fun _ _ spells => spells.lent lent⟩

/-- The array is set as the tags. -/
theorem Loading.set (loading : s.Loading h ref task [] [] a r texts) (thread : Nat) :
    let set := s.perform thread (.member .setTags h [.handle a])
    set.1.reply = .bool true ∧
      set.2.heap.payloadAt ref.number = some (.task { task with tags := texts }) := by
  have ⟨⟨sound, bound, held, _⟩, array, content⟩ := loading
  have tag_eq : ref.tag = .interface TaskModel.ids.task :=
    sound.heap.fits_of_holds (sound.has bound) held
  have registered := sound.registered (sound.has bound) (by rw [tag_eq]; rfl)
  let tags : Property := { name := "tags", ty := .array .string, readOnly := false }
  have editable : s.Editable .task tags h ref := by
    refine ⟨bound, tag_eq, ?_, rfl⟩
    rw [registered.registry_eq]
    exact ⟨_, rfl, rfl⟩
  have said : s.Says (.handle a) tags.ty (.array (texts.map .str)) := by
    have kind_eq := (sound.heap.fits_of_holds (sound.has array) content).1
    have typed : s.registry.HasType (.array .string) (.array (texts.map .str)) := by
      refine .array fun item member => ?_
      obtain ⟨text, _, rfl⟩ := List.mem_map.mp member
      exact .str text
    refine ⟨rfl, r, _, ⟨array, content⟩, by rw [kind_eq]; rfl, ?_⟩
    rw [Collection.toValue_ofTexts]
    exact Registry.conform_eq_ok_iff.mp typed.conform_eq
  exact editable.set_of_updated sound held said (.task (.tags texts)) thread

/-- Without a limit there is a handle as long as the table has room. -/
theorem grants_one_iff (unlimited : s.options.maxLiveHandles = 0) :
    s.Grants 1 ↔ 0 < s.handles.room := by
  simp [Grants, HandleTable.Grants, unlimited, Nat.succ_le_iff]

/-- All tags of a task are given while the table has room; their count is that of the array; and
each tag is read with the text or the error of the item, in the same state and, if there is room for
both handles, before the array is given. -/
def TagsReadAlike (s : State) (h : Handle) (task : Task) (thread : Nat) : Prop :=
  let got := s.perform thread (.member .getTags h [])
  ((got.2.lastErrors thread).code = .none ↔ 0 < s.handles.room) ∧
  ((got.2.lastErrors thread).code = .none → ∃ a, got.1.reply = .handle a ∧ ∀ next,
    (s.perform next (.tagCount h)).1 = ⟨.size task.tags.length, []⟩ ∧
    (got.2.perform next (.tagCount h)).1 = ⟨.size task.tags.length, []⟩ ∧
    (got.2.perform next (.countItems .array a)).1 = ⟨.size task.tags.length, []⟩ ∧
    ∀ index,
      let tag := got.2.perform next (.tagItem h index)
      let item := got.2.perform next (.item a index true)
      item.2 = tag.2 ∧ ∃ outcome, Yields tag next outcome ∧ Yields item next outcome ∧
        (2 ≤ s.handles.room → Yields (s.perform next (.tagItem h index)) next outcome))

/-- Clearing the tags of a task and adding strings one after another leaves the task that is left
when they are pushed to a new array and this is set as the tags. -/
def TagsSetAlike (s : State) (h : Handle) (ref : Ref) (task : Task) (words : List (Nat × Handle))
    (texts : List String) (first last : Nat) : Prop :=
  let cleared := s.performAll ((first, .clearTags h) ::
    words.map fun word => (word.1, .addTag h word.2))
  let made := s.perform first (.newCollection .array)
  cleared.heap.payloadAt ref.number = some (.task { task with tags := texts }) ∧
  ((made.2.lastErrors first).code = .none ↔ 0 < s.handles.room) ∧
  ∀ a, (made.2.lastErrors first).code = .none → made.1.reply = .handle a →
    let pushed := made.2.performAll (words.map fun word => (word.1, .push a (.handle word.2)))
    let set := pushed.perform last (.member .setTags h [.handle a])
    set.1.reply = .bool true ∧
      set.2.heap.payloadAt ref.number = some (.task { task with tags := texts })

theorem tagsReadAlike (reachable : s.Reachable) (unlimited : s.options.maxLiveHandles = 0)
    (hb : s.handles.bound? h = some ref)
    (held : s.heap.payloadAt ref.number = some (.task task)) (thread : Nat) :
    s.TagsReadAlike h task thread := by
  unfold TagsReadAlike
  intro got
  have sound := reachable.sound
  have reached : got.2.Reachable :=
    reachable.step (.call thread (.of_symbol "ITask_Gettags" [.handle h] rfl))
  obtain ⟨granted, a, r, c, t, got_eq, lent, spends, bound, content, kind_eq, entries_eq⟩ |
    ⟨denied, failed⟩ := perform_getTags sound hb held thread
  case inr =>
    exact ⟨⟨fun succeeded => absurd succeeded failed, fun room =>
      absurd ((grants_one_iff unlimited).mpr room) denied⟩,
      fun succeeded => absurd succeeded failed⟩
  have got_eq : got = _ := got_eq
  have succeeded : (got.2.lastErrors thread).code = .none := by
    rw [got_eq, code_setLastError_clear]
  have answered : got.1.reply = .handle a := by rw [got_eq]
  refine ⟨⟨fun _ => (grants_one_iff unlimited).mp granted, fun _ => succeeded⟩,
    fun _ => ⟨a, answered, fun next => ?_⟩⟩
  have behind : got.2.Behind a r c :=
    ⟨reached.sound, reached.wellTyped, by rw [got_eq]; exact bound, by rw [got_eq]; exact content⟩
  have hb' : got.2.handles.bound? h = some ref := by
    rw [got_eq]
    exact lent.bound_of hb
  have held' : got.2.heap.payloadAt ref.number = some (.task task) := by
    rw [got_eq]
    exact lent.grown.payloadAt_eq held
  have count := perform_countItems behind next
  rw [kind_eq, Collection.count, entries_eq, List.length_map] at count
  refine ⟨perform_tagCount sound hb held next, perform_tagCount reached.sound hb' held' next,
    count, fun index => ?_⟩
  obtain ⟨string_eq, state_eq⟩ := perform_item behind kind_eq entries_eq hb' held' next index
  obtain ⟨outcome, yields, exact⟩ := yields_tagItem reached.sound hb' held' next index
  refine ⟨state_eq, outcome, yields, yields.congr string_eq state_eq, fun room => ?_⟩
  obtain ⟨early, yields', exact'⟩ := yields_tagItem sound hb held next index
  have unlimited' : got.2.options.maxLiveHandles = 0 := by
    rw [got_eq]
    exact spends.options_eq ▸ unlimited
  have room' : 0 < got.2.handles.room := by
    have left : t.handles.room + 1 = s.handles.room := spends.room_eq
    rw [got_eq]
    change 0 < t.handles.room
    omega
  rwa [exact ((grants_one_iff unlimited').mpr room'), ← exact' granted]

/-- A live handle of the tag of tasks is that of a task. -/
theorem Sound.exists_task (sound : s.Sound) (hb : s.handles.bound? h = some ref)
    (tag_eq : ref.tag = .interface TaskModel.ids.task) :
    ∃ task, s.heap.payloadAt ref.number = some (.task task) := by
  obtain ⟨p, held⟩ := (sound.holds_bound hb).payload
  have fits := sound.heap.fits_of_holds (sound.has hb) held
  rw [tag_eq] at fits
  obtain ⟨task, rfl⟩ := fits.exists_task
  exact ⟨task, held⟩

theorem Sound.exists_texts (sound : s.Sound)
    (strings : ∀ word ∈ words, ∃ r, s.handles.bound? word.2 = some r ∧ r.tag = .string) :
    ∃ texts, List.Forall₂ (fun word text => s.Spells word.2 text) words texts := by
  induction words with
  | nil => exact ⟨[], .nil⟩
  | cons word words ih =>
    obtain ⟨r, bound, tag_eq⟩ := strings word (by simp)
    obtain ⟨text, spells⟩ := sound.exists_spells bound tag_eq
    obtain ⟨texts, spelled⟩ := ih fun word member => strings word (by simp [member])
    exact ⟨text :: texts, .cons spells spelled⟩

theorem Stage.tagsSetAlike (stage : s.Stage h ref task words texts)
    (unlimited : s.options.maxLiveHandles = 0) (first last : Nat) :
    s.TagsSetAlike h ref task words texts first last := by
  unfold TagsSetAlike
  intro cleared made
  refine ⟨stage.clear_addAll first, ?_⟩
  obtain ⟨granted, b, t, made_eq, lent, r, bound, _, content⟩ | ⟨denied, failed⟩ :=
    perform_newCollection stage.sound .array first
  case inr =>
    exact ⟨⟨fun succeeded => absurd succeeded failed, fun room =>
      absurd ((grants_one_iff unlimited).mpr room) denied⟩,
      fun a succeeded => absurd succeeded failed⟩
  have made_eq : made = _ := made_eq
  have succeeded : (made.2.lastErrors first).code = .none := by
    rw [made_eq, code_setLastError_clear]
  refine ⟨⟨fun _ => (grants_one_iff unlimited).mp granted, fun _ => succeeded⟩, ?_⟩
  intro a _ answered pushed set
  have same : b = a := by
    rw [made_eq] at answered
    exact Reply.handle.inj answered
  subst same
  have opened : made.2.Loading h ref task words texts b r [] := by
    have counted : s.countCall.Stage h ref task words texts :=
      ⟨stage.sound.countCall, stage.bound, stage.held, stage.spelled⟩
    have later := counted.lent lent
    rw [made_eq]
    exact ⟨⟨later.sound.of_eq rfl rfl rfl rfl rfl, later.bound, later.held, later.spelled⟩, bound,
      content⟩
  have full := opened.pushAll
  rw [List.nil_append] at full
  exact full.set last

/-- The entry points for single tags agree with those for all tags, in reading and in setting. -/
theorem single_tags_agree (reachable : s.Reachable) (unlimited : s.options.maxLiveHandles = 0)
    (hb : s.handles.bound? h = some ref) (tag_eq : ref.tag = .interface TaskModel.ids.task) :
    ∃ task, s.heap.payloadAt ref.number = some (.task task) ∧
      (∀ thread, s.TagsReadAlike h task thread) ∧
      ∀ (words : List (Nat × Handle)) (first last : Nat),
        (∀ word ∈ words, ∃ r, s.handles.bound? word.2 = some r ∧ r.tag = .string) →
        ∃ texts, List.Forall₂ (fun word text => s.Spells word.2 text) words texts ∧
          s.TagsSetAlike h ref task words texts first last := by
  have sound := reachable.sound
  obtain ⟨task, held⟩ := sound.exists_task hb tag_eq
  refine ⟨task, held, tagsReadAlike reachable unlimited hb held, fun words first last strings => ?_⟩
  obtain ⟨texts, spelled⟩ := sound.exists_texts strings
  have stage : s.Stage h ref task words texts := ⟨sound, hb, held, spelled⟩
  exact ⟨texts, spelled, stage.tagsSetAlike unlimited first last⟩

/-- A tag can be read by position and in the array, and two added tags are two pushed ones. -/
theorem urgent_tags_agree :
    let task : Handle := ⟨0x100000001⟩
    let word : Handle := ⟨0x100000002⟩
    let s := performAll {} [(0, .createAs .task), (0, .createText (.text "urgent")),
      (0, .addTag task word)]
    s.options.maxLiveHandles = 0 ∧ ∃ content : Task,
      (∀ thread, s.TagsReadAlike task content thread) ∧ ∃ texts, texts.length = 2 ∧
        s.TagsSetAlike task ⟨0, .interface TaskModel.ids.task⟩ content [(1, word), (2, word)] texts
          3 4 := by
  dsimp only
  generalize made : performAll _ _ = s
  have reachable : s.Reachable := by
    rw [← made]
    refine Leads.refl.performAll fun call hcall => ?_
    simp only [List.mem_cons, List.not_mem_nil, or_false] at hcall
    rcases hcall with rfl | rfl | rfl
    · exact .of_symbol "ITask_Create" [] rfl
    · exact .of_symbol "idlbridge_string_create" [.text _] rfl
    · exact .of_symbol "ITask_Settags_Add" [.handle _, .handle _] rfl
  have facts : s.options.maxLiveHandles = 0 ∧
      s.handles.bound? ⟨0x100000001⟩ = some ⟨0, .interface TaskModel.ids.task⟩ ∧
      s.handles.bound? ⟨0x100000002⟩ = some ⟨1, .string⟩ := by
    rw [← made]
    decide +kernel
  obtain ⟨unlimited, hb, hb'⟩ := facts
  obtain ⟨content, _, read, set⟩ := single_tags_agree reachable unlimited hb rfl
  obtain ⟨texts, spelled, alike⟩ := set [(1, _), (2, _)] 3 4 fun pair member => by
    simp only [List.mem_cons, List.not_mem_nil, or_false] at member
    rcases member with rfl | rfl <;> exact ⟨_, hb', rfl⟩
  exact ⟨unlimited, content, read, texts, spelled.length_eq.symm, alike⟩

end State

end ObjectBoundary
