import ObjectBoundary.Proofs.Handle.Access
import ObjectBoundary.Proofs.Handle.Table

/-!
# The past of a handle

A table is used again and again, with limits that change in between. The answers that it gave say of
every 64-bit word whether it was ever given out, for which object, and whether it was ended; the
table, which keeps only generations, gives the same verdict.
-/

namespace ObjectBoundary

/-- One use of the handle table, or a change of the limit of live handles. -/
inductive TableUse where
  | issue (ref : Ref)
  | duplicate (handle : Handle) (expected : Option Tag)
  | resolve (handle : Handle) (expected : Option Tag)
  | release (handle : Handle) (expected : Option Tag)
  | refcount (handle : Handle) (expected : Option Tag)
  | limit (most : Nat)

inductive TableAnswer where
  | handle (handle : Handle)
  | object (ref : Ref)
  | count (n : Nat)
  | done

namespace TableUse

def op : TableUse → Op TableAnswer
  | .issue ref => return .handle (← Op.issue ref)
  | .duplicate h expected => return .handle (← Op.duplicate h expected)
  | .resolve h expected => return .object (← Op.resolve h expected)
  | .release h expected => return .count (← Op.release h expected)
  | .refcount h expected => return .count (← Op.refcount h expected)
  | .limit most => do
    modify fun s => { s with options := { s.options with maxLiveHandles := most } }
    return .done

end TableUse

/-- What was asked of the table and how it ended, the newest first. -/
abbrev TablePast := List (TableUse × Except Failure TableAnswer)

namespace State

/-- The past and the state after some uses, of which the newest stands first. -/
def afterUses (s : State) : List TableUse → TablePast × State
  | [] => ([], s)
  | use :: earlier =>
    let (past, t) := s.afterUses earlier
    ((use, (t.run use.op).1) :: past, (t.run use.op).2)

end State

namespace TablePast

def given? : TableUse × Except Failure TableAnswer → Option Handle
  | (_, .ok (.handle h)) => some h
  | _ => none

def ended? : TableUse × Except Failure TableAnswer → Option Handle
  | (.release h _, .ok _) => some h
  | _ => none

def handedOut (past : TablePast) : List Handle := past.filterMap given?

def endings (past : TablePast) (h : Handle) : Nat := past.countP fun event => ended? event = some h

/-- The object for which a handle was given out: the one that was passed, or the one of the handle
that was duplicated. -/
def issuedFor? : TablePast → Handle → Option Ref
  | [], _ => none
  | event :: past, h =>
    if given? event = some h then
      match event.1 with
      | .issue ref => some ref
      | .duplicate source _ => issuedFor? past source
      | _ => none
    else issuedFor? past h

end TablePast

namespace HandleTable

/-- The handles that a table has given out: those of the generations that a slot has left behind,
and the one of its own generation while it is occupied. -/
def Given (table : HandleTable) (h : Handle) : Prop :=
  ∃ slot, table.slots[h.index]? = some slot ∧ 0 < h.generation ∧
    (h.generation < slot.generation ∨ h.generation = slot.generation ∧ slot.entry.isSome)

theorem WellFormed.given_of_bound {table : HandleTable} (wf : table.WellFormed) {h : Handle}
    {ref : Ref} (hb : table.bound? h = some ref) : table.Given h := by
  rw [wf.bound?_iff] at hb
  exact ⟨_, hb, wf.generation_pos _ _ hb, .inr ⟨rfl, rfl⟩⟩

theorem WellFormed.ne_null_of_given {table : HandleTable} (wf : table.WellFormed) {h : Handle}
    (hg : table.Given h) : h.isNull = false := by
  obtain ⟨slot, hs, _⟩ := hg
  exact Handle.not_isNull_of_index (wf.index_lt hs)

/-- The four verdicts on a word, and what the table answers in each. -/
theorem WellFormed.find_cases {table : HandleTable} (wf : table.WellFormed) (h : Handle) :
    (h = .null ∧ table.find h = .error .null ∧ ¬ table.Given h) ∨
    (∃ slot ref, table.bound? h = some ref ∧ table.find h = .ok (slot, ref) ∧ table.Given h) ∨
    (table.bound? h = none ∧ table.find h = .error (.stale h) ∧ table.Given h) ∨
    (h ≠ .null ∧ table.bound? h = none ∧ table.find h = .error (.unknown h) ∧
      ¬ table.Given h) := by
  cases hb : table.bound? h with
  | some ref =>
    obtain ⟨slot, hf⟩ := bound?_eq_some_iff.mp hb
    exact .inr (.inl ⟨slot, ref, rfl, hf, wf.given_of_bound hb⟩)
  | none =>
    cases hnull : h.isNull with
    | true =>
      refine .inl ⟨(Handle.isNull_iff h).mp hnull, by simp [find, hnull], ?_⟩
      intro hg
      rw [wf.ne_null_of_given hg] at hnull
      cases hnull
    | false =>
      have hne : h ≠ .null := by
        intro heq
        rw [(Handle.isNull_iff h).mpr heq] at hnull
        cases hnull
      cases hs : table.slots[h.index]? with
      | none =>
        refine .inr (.inr (.inr ⟨hne, rfl, by simp [find, hnull, hs], ?_⟩))
        rintro ⟨slot, hslot, _⟩
        rw [hs] at hslot
        cases hslot
      | some slot =>
        have hdead : table.find h = .error (dead slot h) := by
          cases he : slot.entry with
          | none => simp [find, hnull, hs, he]
          | some ref =>
            have hg : slot.generation ≠ h.generation := by
              intro hg
              have : table.bound? h = some ref := bound?_eq_some_iff.mpr
                ⟨slot, find_eq_ok_iff.mpr ⟨hnull, hs, he, hg⟩⟩
              rw [hb] at this
              cases this
            simp [find, hnull, hs, he, hg]
        by_cases hstale : h.generation ≠ 0 ∧ h.generation < slot.generation
        · refine .inr (.inr (.inl ⟨rfl, by rw [hdead, dead, if_pos hstale], slot, hs, ?_⟩))
          exact ⟨UInt32.pos_iff_ne_zero.mpr hstale.1, .inl hstale.2⟩
        · refine .inr (.inr (.inr ⟨hne, rfl, by rw [hdead, dead, if_neg hstale], ?_⟩))
          rintro ⟨slot', hslot, hpos, hgen⟩
          cases hs.symm.trans hslot
          rcases hgen with hlt | ⟨heq, hsome⟩
          · exact hstale ⟨UInt32.pos_iff_ne_zero.mp hpos, hlt⟩
          · obtain ⟨ref, he⟩ := Option.isSome_iff_exists.mp hsome
            have : table.bound? h = some ref := bound?_eq_some_iff.mpr
              ⟨slot, find_eq_ok_iff.mpr ⟨hnull, hs, he, heq.symm⟩⟩
            rw [hb] at this
            cases this

/-- Giving out a handle adds that one to those given out, and it was not among them. -/
theorem Gives.given_iff {table table' : HandleTable} {ref : Ref} {h : Handle}
    (gives : table.Gives ref h table') (wf' : table'.WellFormed) (k : Handle) :
    (table'.Given k ↔ table.Given k ∨ k = h) ∧ ¬ table.Given h := by
  have hpos := wf'.generation_pos _ _ gives.after
  refine ⟨?_, ?_⟩
  · by_cases hi : k.index = h.index
    · constructor
      · rintro ⟨slot, hs, hk, hgen⟩
        rw [hi, gives.after] at hs
        cases hs
        rcases hgen with hlt | ⟨heq, _⟩
        · rcases gives.before with hempty | ⟨_, hone⟩
          · exact .inl ⟨⟨h.generation, none⟩, by rw [hi]; exact hempty, hk, .inl hlt⟩
          · simp only [hone] at hlt
            have := UInt32.lt_iff_toNat_lt.mp hlt
            have := UInt32.lt_iff_toNat_lt.mp hk
            simp only [UInt32.reduceToNat] at *
            omega
        · exact .inr (Handle.eq_of_parts (by rw [hi]; exact gives.index_lt) hi heq)
      · rintro (⟨slot, hs, hk, hgen⟩ | rfl)
        · rw [hi] at hs
          rcases gives.before with hempty | ⟨hend, _⟩
          · cases hempty.symm.trans hs
            rcases hgen with hlt | ⟨_, hbad⟩
            · exact ⟨⟨h.generation, some ref⟩, by rw [hi]; exact gives.after, hk, .inl hlt⟩
            · cases hbad
          · simp [List.getElem?_eq_none (Nat.le_of_eq hend)] at hs
        · exact ⟨_, gives.after, hpos, .inr ⟨rfl, rfl⟩⟩
    · have hne : k ≠ h := fun heq => hi (congrArg Handle.index heq)
      simp only [Given, gives.other k.index hi, hne, or_false]
  · rintro ⟨slot, hs, _, hgen⟩
    rcases gives.before with hempty | ⟨hend, _⟩
    · cases hempty.symm.trans hs
      rcases hgen with hlt | ⟨_, hbad⟩
      · exact absurd hlt (UInt32.lt_irrefl _)
      · cases hbad
    · simp [List.getElem?_eq_none (Nat.le_of_eq hend)] at hs

/-- Ending a handle does not change which handles were given out. -/
theorem Takes.given_iff {table table' : HandleTable} {ref : Ref} {h : Handle}
    (takes : table.Takes ref h table') (k : Handle) : table'.Given k ↔ table.Given k := by
  have hnext := toNat_succ_generation takes.generation_lt
  by_cases hi : k.index = h.index
  · constructor
    · rintro ⟨slot, hs, hk, hgen⟩
      rw [hi, takes.after] at hs
      cases hs
      rcases hgen with hlt | ⟨_, hbad⟩
      · refine ⟨_, by rw [hi]; exact takes.before, hk, ?_⟩
        have hle := UInt32.lt_iff_toNat_lt.mp hlt
        by_cases heq : k.generation = h.generation
        · exact .inr ⟨heq, rfl⟩
        · have hne : k.generation.toNat ≠ h.generation.toNat :=
            fun h' => heq (UInt32.toNat_inj.mp h')
          exact .inl (UInt32.lt_iff_toNat_lt.mpr (by simp only at hle ⊢; omega))
      · cases hbad
    · rintro ⟨slot, hs, hk, hgen⟩
      rw [hi, takes.before] at hs
      cases hs
      refine ⟨_, by rw [hi]; exact takes.after, hk, .inl (UInt32.lt_iff_toNat_lt.mpr ?_)⟩
      rcases hgen with hlt | ⟨heq, _⟩
      · have := UInt32.lt_iff_toNat_lt.mp hlt
        simp only at *
        omega
      · simp only at heq ⊢
        rw [heq]
        omega
  · simp only [Given, takes.other k.index hi]

end HandleTable

open TablePast

/-- What a use can do to the table: nothing, give out a handle, or end one. -/
inductive TableStep (table : HandleTable) (event : TableUse × Except Failure TableAnswer)
    (table' : HandleTable) : Prop where
  | keeps (same : table' = table) (given : given? event = none) (ended : ended? event = none)
  | gives (ref : Ref) (h : Handle) (gives : table.Gives ref h table')
      (given : given? event = some h) (ended : ended? event = none)
      (how : event.1 = .issue ref ∨
        ∃ source expected, event.1 = .duplicate source expected ∧ table.bound? source = some ref)
  | takes (ref : Ref) (h : Handle) (takes : table.Takes ref h table')
      (given : given? event = none) (ended : ended? event = some h)

namespace TableUse

variable {s : State}

theorem step_of_issue (wf : s.handles.WellFormed) {use : TableUse} {ref : Ref}
    (how : use = .issue ref ∨
      ∃ source expected, use = .duplicate source expected ∧ s.handles.bound? source = some ref)
    (run : s.run use.op = s.run (do return .handle (← Op.issue ref))) :
    (s.run use.op).2.handles.WellFormed ∧
      TableStep s.handles (use, (s.run use.op).1) (s.run use.op).2.handles := by
  rw [run, State.run_bind, State.run_issue]
  cases hi : s.handles.issue s.options.maxLiveHandles ref with
  | error cause =>
    refine ⟨wf, .keeps rfl rfl ?_⟩
    rcases how with rfl | ⟨_, _, rfl, _⟩ <;> rfl
  | ok found =>
    obtain ⟨h, handles⟩ := found
    refine ⟨wf.issue hi, .gives ref h (wf.issue_gives hi) rfl ?_ how⟩
    rcases how with rfl | ⟨_, _, rfl, _⟩ <;> rfl

theorem step_of_use (wf : s.handles.WellFormed) (use : TableUse) :
    (s.run use.op).2.handles.WellFormed ∧
      TableStep s.handles (use, (s.run use.op).1) (s.run use.op).2.handles := by
  cases use with
  | issue ref => exact step_of_issue wf (.inl rfl) rfl
  | duplicate source expected =>
    cases hr : s.handles.resolve source expected with
    | ok ref =>
      have hb := (HandleTable.resolve_eq_ok_iff.mp hr).1
      refine step_of_issue wf (.inr ⟨source, expected, rfl, hb⟩) ?_
      simp only [op, State.run_bind, State.run_duplicate, hr]
    | error cause =>
      simp only [op, State.run_bind, State.run_duplicate, hr]
      exact ⟨wf, .keeps rfl rfl rfl⟩
  | resolve h expected =>
    simp only [op, State.run_bind, State.run_resolve]
    cases s.handles.resolve h expected <;> exact ⟨wf, .keeps rfl rfl rfl⟩
  | refcount h expected =>
    simp only [op, State.run_bind, State.run_refcount]
    cases s.handles.resolve h expected <;> exact ⟨wf, .keeps rfl rfl rfl⟩
  | release h expected =>
    simp only [op, State.run_bind, State.run_release]
    cases hr : s.handles.release h expected with
    | ok found =>
      obtain ⟨ref, handles⟩ := found
      exact ⟨wf.release hr, .takes ref h (wf.release_takes hr) rfl rfl⟩
    | error cause =>
      refine ⟨?_, .keeps ?_ rfl rfl⟩
      · simpa only [State.handles_noticed] using wf
      · exact State.handles_noticed s cause
  | limit most => exact ⟨wf, .keeps rfl rfl rfl⟩

end TableUse

/-- What the past says of every handle is what the table says of it. -/
structure Remembers (past : TablePast) (table : HandleTable) : Prop where
  nodup : past.handedOut.Nodup
  mem_handedOut : ∀ h, h ∈ past.handedOut ↔ table.Given h
  issued_iff : ∀ h, (past.issuedFor? h).isSome ↔ table.Given h
  bound_iff : ∀ h ref, table.bound? h = some ref ↔ past.issuedFor? h = some ref ∧ past.endings h = 0
  endings_le : ∀ h, past.endings h ≤ 1
  given_of_ended : ∀ h, past.endings h ≠ 0 → table.Given h

theorem remembers_nil : Remembers [] {} := by
  have hgiven : ∀ h, ¬ HandleTable.Given {} h := by
    rintro h ⟨slot, hs, _⟩
    cases hs
  refine ⟨List.nodup_nil, fun h => ?_, fun h => ?_, fun h ref => ?_, fun h => Nat.zero_le 1,
    fun h hne => absurd rfl hne⟩
  · simp [handedOut, hgiven]
  · simp [issuedFor?, hgiven]
  · rw [HandleTable.wellFormed_empty.bound?_iff]
    simp [issuedFor?]

theorem Remembers.keeps {past : TablePast} {table : HandleTable} (mem : Remembers past table)
    {event : TableUse × Except Failure TableAnswer} (given : given? event = none)
    (ended : ended? event = none) : Remembers (event :: past) table := by
  have hout : handedOut (event :: past) = past.handedOut := by simp [handedOut, given]
  have hissued : ∀ h, issuedFor? (event :: past) h = past.issuedFor? h := by
    intro h
    simp [issuedFor?, given]
  have hend : ∀ h, endings (event :: past) h = past.endings h := by
    intro h
    simp [endings, ended]
  constructor
  · rw [hout]
    exact mem.nodup
  · simpa only [hout] using mem.mem_handedOut
  · simpa only [hissued] using mem.issued_iff
  · simpa only [hissued, hend] using mem.bound_iff
  · simpa only [hend] using mem.endings_le
  · simpa only [hend] using mem.given_of_ended

theorem Remembers.gives {past : TablePast} {table table' : HandleTable}
    (mem : Remembers past table) (wf : table.WellFormed) (wf' : table'.WellFormed)
    {event : TableUse × Except Failure TableAnswer} {ref : Ref} {h : Handle}
    (gives : table.Gives ref h table') (given : given? event = some h)
    (ended : ended? event = none)
    (how : event.1 = .issue ref ∨
      ∃ source expected, event.1 = .duplicate source expected ∧ table.bound? source = some ref) :
    Remembers (event :: past) table' := by
  have hnew : ¬ table.Given h := (gives.given_iff wf' h).2
  have hout : handedOut (event :: past) = h :: past.handedOut := by simp [handedOut, given]
  have hself : issuedFor? (event :: past) h = some ref := by
    simp only [issuedFor?, given, ↓reduceIte]
    rcases how with heq | ⟨source, expected, heq, hb⟩
    · rw [heq]
    · rw [heq]
      exact ((mem.bound_iff source ref).mp hb).1
  have hother : ∀ k, k ≠ h → issuedFor? (event :: past) k = past.issuedFor? k := by
    intro k hk
    simp [issuedFor?, given, Ne.symm hk]
  have hend : ∀ k, endings (event :: past) k = past.endings k := by
    intro k
    simp [endings, ended]
  have hnever : past.endings h = 0 := by
    by_cases hz : past.endings h = 0
    · exact hz
    · exact absurd (mem.given_of_ended h hz) hnew
  constructor
  · rw [hout]
    exact List.nodup_cons.mpr ⟨fun hm => hnew ((mem.mem_handedOut h).mp hm), mem.nodup⟩
  · intro k
    rw [hout, List.mem_cons, (gives.given_iff wf' k).1, mem.mem_handedOut k]
    exact or_comm
  · intro k
    rw [(gives.given_iff wf' k).1]
    by_cases hk : k = h
    · subst hk
      simp [hself]
    · rw [hother k hk, mem.issued_iff k]
      simp [hk]
  · intro k r
    rw [gives.bound?_eq wf wf' k, hend k]
    by_cases hk : k = h
    · subst hk
      rw [if_pos rfl, hself, hnever]
      simp
    · rw [if_neg hk, hother k hk]
      exact mem.bound_iff k r
  · simpa only [hend] using mem.endings_le
  · intro k hk
    rw [hend k] at hk
    exact ((gives.given_iff wf' k).1).mpr (.inl (mem.given_of_ended k hk))

theorem Remembers.takes {past : TablePast} {table table' : HandleTable}
    (mem : Remembers past table) (wf : table.WellFormed) (wf' : table'.WellFormed)
    {event : TableUse × Except Failure TableAnswer} {ref : Ref} {h : Handle}
    (takes : table.Takes ref h table') (given : given? event = none)
    (ended : ended? event = some h) : Remembers (event :: past) table' := by
  have hbound : table.bound? h = some ref := wf.bound?_iff.mpr takes.before
  have hout : handedOut (event :: past) = past.handedOut := by simp [handedOut, given]
  have hissued : ∀ k, issuedFor? (event :: past) k = past.issuedFor? k := by
    intro k
    simp [issuedFor?, given]
  have hself : endings (event :: past) h = past.endings h + 1 := by simp [endings, ended]
  have hother : ∀ k, k ≠ h → endings (event :: past) k = past.endings k := by
    intro k hk
    simp [endings, ended, Ne.symm hk]
  have hnever : past.endings h = 0 := ((mem.bound_iff h ref).mp hbound).2
  constructor
  · rw [hout]
    exact mem.nodup
  · intro k
    rw [hout, takes.given_iff k]
    exact mem.mem_handedOut k
  · intro k
    rw [hissued, takes.given_iff k]
    exact mem.issued_iff k
  · intro k r
    rw [takes.bound?_eq wf wf' k, hissued]
    by_cases hk : k = h
    · subst hk
      rw [if_pos rfl, hself]
      simp
    · rw [if_neg hk, hother k hk]
      exact mem.bound_iff k r
  · intro k
    by_cases hk : k = h
    · subst hk
      omega
    · rw [hother k hk]
      exact mem.endings_le k
  · intro k hk
    rw [takes.given_iff k]
    by_cases heq : k = h
    · subst heq
      exact wf.given_of_bound hbound
    · rw [hother k heq] at hk
      exact mem.given_of_ended k hk

/-- Whatever is asked of a new table, it remembers. -/
theorem remembers_afterUses (s : State) (uses : List TableUse) :
    ((({ s with handles := {} } : State).afterUses uses).2.handles).WellFormed ∧
      Remembers (({ s with handles := {} } : State).afterUses uses).1
        (({ s with handles := {} } : State).afterUses uses).2.handles := by
  induction uses with
  | nil => exact ⟨HandleTable.wellFormed_empty, remembers_nil⟩
  | cons use earlier ih =>
    obtain ⟨wf, mem⟩ := ih
    obtain ⟨wf', step⟩ := TableUse.step_of_use wf use
    refine ⟨wf', ?_⟩
    cases step with
    | keeps same given ended =>
      have hsame : (({ s with handles := {} } : State).afterUses (use :: earlier)).2.handles =
        (({ s with handles := {} } : State).afterUses earlier).2.handles := same
      rw [hsame]
      exact mem.keeps given ended
    | gives ref h gives given ended how => exact mem.gives wf wf' gives given ended how
    | takes ref h takes given ended => exact mem.takes wf wf' takes given ended

/-- What resolving and releasing a word answer, by the verdict on it. -/
theorem HandleTable.WellFormed.answers {s : State} (wf : s.handles.WellFormed) (h : Handle)
    (expected : Option Tag) :
    (h = .null ∧ ¬ s.handles.Given h ∧
      (s.run (Op.resolve h none)).1 = .error (.fault .nullHandle) ∧
      (s.run (Op.release h expected)).1 = .error (.fault .nullHandle)) ∨
    (∃ ref, s.handles.bound? h = some ref ∧ h ≠ .null ∧ s.handles.Given h ∧
      (s.run (Op.resolve h none)).1 = .ok ref ∧
      ∀ k : Handle, (s.run (Op.release h expected)).1 ≠ .error (.fault (.doubleRelease k)) ∧
        (s.run (Op.release h expected)).1 ≠ .error (.fault (.unknownHandle k))) ∨
    (s.handles.bound? h = none ∧ h ≠ .null ∧ s.handles.Given h ∧
      (s.run (Op.resolve h none)).1 = .error (.fault (.staleHandle h)) ∧
      (s.run (Op.release h expected)).1 = .error (.fault (.doubleRelease h))) ∨
    (s.handles.bound? h = none ∧ h ≠ .null ∧ ¬ s.handles.Given h ∧
      (s.run (Op.resolve h none)).1 = .error (.fault (.unknownHandle h)) ∧
      (s.run (Op.release h expected)).1 = .error (.fault (.unknownHandle h))) := by
  rw [State.run_resolve, State.run_release, HandleTable.resolve_none]
  rcases wf.find_cases h with ⟨hn, hf, hg⟩ | ⟨slot, ref, hb, hf, hg⟩ | ⟨hb, hf, hg⟩ |
    ⟨hn, hb, hf, hg⟩
  · refine .inl ⟨hn, hg, ?_⟩
    simp [HandleTable.release, hf, Except.map, Op.tableFault]
  · refine .inr (.inl ⟨ref, hb, ?_, hg, by simp [hf, Except.map], ?_⟩)
    · rintro rfl
      exact absurd (wf.ne_null_of_given hg) (by decide)
    · intro k
      simp only [HandleTable.release, hf]
      cases expected with
      | none => exact ⟨nofun, nofun⟩
      | some tag =>
        by_cases htag : ref.tag = tag
        · simp [HandleTable.checkTag, htag, bind, Except.bind, pure, Except.pure]
        · simp [HandleTable.checkTag, htag, bind, Except.bind, Op.tableFault]
  · refine .inr (.inr (.inl ⟨hb, ?_, hg, ?_⟩))
    · rintro rfl
      exact absurd (wf.ne_null_of_given hg) (by decide)
    · simp [HandleTable.release, hf, Except.map, Op.tableFault]
  · refine .inr (.inr (.inr ⟨hb, hn, hg, ?_⟩))
    simp [HandleTable.release, hf, Except.map, Op.tableFault]

section Verdicts

variable {s : State} (wf : s.handles.WellFormed) (h : Handle)
include wf

theorem resolve_ok_iff (ref : Ref) :
    (s.run (Op.resolve h none)).1 = .ok ref ↔ s.handles.bound? h = some ref := by
  rcases wf.answers h none with ⟨_, hg, hr, _⟩ | ⟨r, hb, _, _, hr, _⟩ | ⟨hb, _, _, hr, _⟩ |
    ⟨hb, _, _, hr, _⟩
  · rw [hr]
    exact ⟨nofun, fun hb => absurd (wf.given_of_bound hb) hg⟩
  · simp [hr, hb]
  · simp [hr, hb]
  · simp [hr, hb]

theorem resolve_stale_iff : (s.run (Op.resolve h none)).1 = .error (.fault (.staleHandle h)) ↔
    s.handles.Given h ∧ s.handles.bound? h = none := by
  rcases wf.answers h none with ⟨_, hg, hr, _⟩ | ⟨r, hb, _, _, hr, _⟩ | ⟨hb, _, hg, hr, _⟩ |
    ⟨_, _, hg, hr, _⟩
  · simp [hr, hg]
  · simp [hr, hb]
  · simp [hr, hb, hg]
  · simp [hr, hg]

theorem resolve_null_iff :
    (s.run (Op.resolve h none)).1 = .error (.fault .nullHandle) ↔ h = .null := by
  rcases wf.answers h none with ⟨hn, _, hr, _⟩ | ⟨r, _, hn, _, hr, _⟩ | ⟨_, hn, _, hr, _⟩ |
    ⟨_, hn, _, hr, _⟩ <;> rw [hr] <;> simp [hn]

theorem resolve_unknown_iff :
    (s.run (Op.resolve h none)).1 = .error (.fault (.unknownHandle h)) ↔
      h ≠ .null ∧ ¬ s.handles.Given h := by
  rcases wf.answers h none with ⟨hn, _, hr, _⟩ | ⟨r, _, _, hg, hr, _⟩ | ⟨_, _, hg, hr, _⟩ |
    ⟨_, hn, hg, hr, _⟩
  · rw [hr]
    simp [hn]
  · simp [hr, hg]
  · simp [hr, hg]
  · simp [hr, hn, hg]

theorem release_double_iff (expected : Option Tag) :
    (s.run (Op.release h expected)).1 = .error (.fault (.doubleRelease h)) ↔
      s.handles.Given h ∧ s.handles.bound? h = none := by
  rcases wf.answers h expected with ⟨_, hg, _, hr⟩ | ⟨r, hb, _, _, _, hr⟩ | ⟨hb, _, hg, _, hr⟩ |
    ⟨_, _, hg, _, hr⟩
  · simp [hr, hg]
  · simp [(hr h).1, hb]
  · simp [hr, hb, hg]
  · simp [hr, hg]

theorem release_unknown_iff (expected : Option Tag) :
    (s.run (Op.release h expected)).1 = .error (.fault (.unknownHandle h)) ↔
      h ≠ .null ∧ ¬ s.handles.Given h := by
  rcases wf.answers h expected with ⟨hn, _, _, hr⟩ | ⟨r, _, _, hg, _, hr⟩ | ⟨_, _, hg, _, hr⟩ |
    ⟨_, hn, hg, _, hr⟩
  · rw [hr]
    simp [hn]
  · simp [(hr h).2, hg]
  · simp [hr, hg]
  · simp [hr, hn, hg]

end Verdicts

/-- A handle that was given out has been ended exactly when it is no longer live. -/
theorem Remembers.ended_iff {past : TablePast} {table : HandleTable} (mem : Remembers past table)
    (h : Handle) : table.Given h ∧ table.bound? h = none ↔
      h ∈ past.handedOut ∧ past.endings h ≠ 0 := by
  rw [mem.mem_handedOut h]
  refine and_congr_right fun hg => ?_
  obtain ⟨ref, hr⟩ := Option.isSome_iff_exists.mp ((mem.issued_iff h).mpr hg)
  constructor
  · intro hb hz
    rw [(mem.bound_iff h ref).mpr ⟨hr, hz⟩] at hb
    cases hb
  · intro hne
    apply Option.eq_none_iff_forall_ne_some.mpr
    intro r hb
    exact hne ((mem.bound_iff h r).mp hb).2

/-- The past decides. No handle is given out twice; a word resolves exactly when it was given out
and not ended, to the object for which it was given out; and the refusals of resolving and releasing
tell ended handles, words that were never given out and the null handle apart. -/
theorem past_classifies_handles (s : State) (uses : List TableUse) :
    let past := (({ s with handles := {} } : State).afterUses uses).1
    let now := (({ s with handles := {} } : State).afterUses uses).2
    past.handedOut.Nodup ∧ ∀ h : Handle,
      ((past.issuedFor? h).isSome ↔ h ∈ past.handedOut) ∧
      (∀ ref, (now.run (Op.resolve h none)).1 = .ok ref ↔
        past.issuedFor? h = some ref ∧ past.endings h = 0) ∧
      ((now.run (Op.resolve h none)).1 = .error (.fault (.staleHandle h)) ↔
        h ∈ past.handedOut ∧ past.endings h ≠ 0) ∧
      ((now.run (Op.resolve h none)).1 = .error (.fault .nullHandle) ↔ h = .null) ∧
      ((now.run (Op.resolve h none)).1 = .error (.fault (.unknownHandle h)) ↔
        h ≠ .null ∧ h ∉ past.handedOut) ∧
      (∀ expected, (now.run (Op.release h expected)).1 = .error (.fault (.doubleRelease h)) ↔
        h ∈ past.handedOut ∧ past.endings h ≠ 0) ∧
      (∀ expected, (now.run (Op.release h expected)).1 = .error (.fault (.unknownHandle h)) ↔
        h ≠ .null ∧ h ∉ past.handedOut) ∧
      past.endings h ≤ 1 := by
  obtain ⟨wf, mem⟩ := remembers_afterUses s uses
  intro past now
  have hunknown : ∀ h : Handle, (h ≠ .null ∧ ¬ now.handles.Given h) ↔
      (h ≠ .null ∧ h ∉ past.handedOut) :=
    fun h => and_congr_right fun _ => not_congr (mem.mem_handedOut h).symm
  refine ⟨mem.nodup, fun h => ⟨?_, fun ref => ?_, ?_, ?_, ?_, fun expected => ?_,
    fun expected => ?_, mem.endings_le h⟩⟩
  · exact (mem.issued_iff h).trans (mem.mem_handedOut h).symm
  · exact (resolve_ok_iff wf h ref).trans (mem.bound_iff h ref)
  · exact (resolve_stale_iff wf h).trans (mem.ended_iff h)
  · exact resolve_null_iff wf h
  · exact (resolve_unknown_iff wf h).trans (hunknown h)
  · exact (release_double_iff wf h expected).trans (mem.ended_iff h)
  · exact (release_unknown_iff wf h expected).trans (hunknown h)

end ObjectBoundary
