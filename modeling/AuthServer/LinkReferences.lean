/-
The references on the objects of a reconnecting link.

Apart from what is outstanding, an object is kept once by the pointer or by
the routine that has it in hand.  `OnCreate` of two of the three classes takes
one reference more, which nothing gives back.
-/

import AuthServer.ReconnectLinks

set_option autoImplicit false

namespace AuthServer

def Routine.holds (index : Nat) : Routine → Bool
  | .failed temp | .connected temp => decide (temp = index)
  | .dropping object => decide (object = index)
  | _ => false

theorem Routine.holds_temp {temp : Nat} (routine : Routine) (isTemp : routine.temp = some temp) :
    routine.holds temp = true := by
  cases routine with
  | failed other => exact decide_eq_true (Option.some.inj isTemp)
  | connected other => exact decide_eq_true (Option.some.inj isTemp)
  | _ => cases isTemp

namespace ReconnectLink

def hands (link : ReconnectLink) (index : Nat) : Nat :=
  (if link.current = some index then 1 else 0) +
    link.routines.countP (Routine.holds index)

def createdAt (link : ReconnectLink) (index : Nat) : Bool :=
  link.objects[index]?.any LinkObject.created

def surplus (kind : LinkKind) (created : Bool) : Nat :=
  if created then kind.createRefs else 0

/-- Every object is kept by its hands and by what `OnCreate` took. -/
def Counted (kind : LinkKind) (objects : List LinkObject) (hands : Nat → Nat) : Prop :=
  ∀ (index : Nat) (object : LinkObject), objects[index]? = some object →
    object.socket.Keeps (hands index + surplus kind object.created)

structure Accounted (kind : LinkKind) (link : ReconnectLink) : Prop where
  counted : Counted kind link.objects link.hands
  single : ∀ index, link.hands index ≤ 1
  fresh : ∀ index, link.objects.length ≤ index → link.hands index = 0
  uncreated : ∀ temp ∈ link.temps, link.createdAt temp = false

theorem start_accounted (kind : LinkKind) : start.Accounted kind :=
  ⟨nofun, fun _ => Nat.zero_le 1, fun _ _ => rfl, nofun⟩

theorem Accounted.fewer {kind : LinkKind} {link next : ReconnectLink}
    (accounted : link.Accounted kind) (counted : Counted kind next.objects next.hands)
    (fewer : ∀ index, next.hands index ≤ link.hands index)
    (length : next.objects.length = link.objects.length)
    (uncreated : ∀ temp ∈ next.temps, next.createdAt temp = false) : next.Accounted kind where
  counted := counted
  single := fun index => Nat.le_trans (fewer index) (accounted.single index)
  fresh := by
    intro index beyond
    rw [length] at beyond
    have none_ := accounted.fresh index beyond
    have less := fewer index
    omega
  uncreated := uncreated

/-! ### Calls -/

theorem Counted.call {kind : LinkKind} {link next : ReconnectLink} {index : Nat}
    {body : LinkCall → Option LinkCall} {hands : Nat → Nat} (after : Nat → Nat)
    (counted : Counted kind link.objects hands) (ran : link.call index body = some next)
    (keeps : ∀ object done, link.objects[index]? = some object →
      body ⟨link.globals, object.socket, object.created⟩ = some done →
      object.socket.Keeps (hands index + surplus kind object.created) →
      done.socket.Keeps (after index + surplus kind done.created))
    (others : ∀ other, other ≠ index → after other = hands other) :
    Counted kind next.objects after := by
  obtain ⟨object, done, found, returned, same⟩ := call_cases link next index body ran
  have within := (List.getElem?_eq_some_iff.mp found).1
  subst same
  intro other reached atOther
  simp only [List.getElem?_set] at atOther
  split at atOther
  · rename_i same
    cases atOther
    subst same
    exact keeps object done found returned (counted index object found)
  · rename_i different
    rw [others other (Ne.symm different)]
    exact counted other reached atOther

theorem call_createdAt {link next : ReconnectLink} {index : Nat}
    {body : LinkCall → Option LinkCall} (ran : link.call index body = some next)
    (other : Nat) (different : other ≠ index) : next.createdAt other = link.createdAt other := by
  obtain ⟨object, done, found, _, same⟩ := call_cases link next index body ran
  subst same
  exact (any_set LinkObject.created other _ found).trans (if_neg different)

theorem call_createdAt_same {link next : ReconnectLink} {index : Nat}
    {body : LinkCall → Option LinkCall}
    (created : ∀ call done, body call = some done → done.created = call.created)
    (ran : link.call index body = some next) (other : Nat) :
    next.createdAt other = link.createdAt other := by
  by_cases isIndex : other = index
  · obtain ⟨object, done, found, returned, same⟩ := call_cases link next index body ran
    have before : link.createdAt index = object.created := by
      rw [createdAt, found, Option.any_some]
    subst same
    rw [isIndex, before]
    have after := any_set LinkObject.created index ⟨done.socket, done.created⟩ found
    rw [if_pos rfl] at after
    exact after.trans (created _ done returned)
  · exact call_createdAt ran other isIndex

theorem hands_congr {link next : ReconnectLink} (current : next.current = link.current)
    (routines : next.routines = link.routines) : next.hands = link.hands := by
  funext index
  rw [hands, hands, current, routines]

/-- A call that keeps the count of its object, whoever has it in hand. -/
theorem Accounted.call {kind : LinkKind} {link next : ReconnectLink} {index : Nat}
    {body : LinkCall → Option LinkCall} (accounted : link.Accounted kind)
    (created : ∀ call done, body call = some done → done.created = call.created)
    (keeps : ∀ object done, link.objects[index]? = some object →
      body ⟨link.globals, object.socket, object.created⟩ = some done →
      object.socket.Keeps (link.hands index + surplus kind object.created) →
      done.socket.Keeps (link.hands index + surplus kind object.created))
    (ran : link.call index body = some next) : next.Accounted kind := by
  have sameCreated := call_createdAt_same created ran
  obtain ⟨object, done, found, _, same⟩ := call_cases link next index body ran
  have hands : next.hands = link.hands := by
    subst same
    rfl
  have length : next.objects.length = link.objects.length := by
    subst same
    exact List.length_set
  have temps : next.temps = link.temps := by
    subst same
    rfl
  apply accounted.fewer _ _ length
  · rw [temps]
    intro temp member
    rw [sameCreated]
    exact accounted.uncreated temp member
  · rw [hands]
    apply accounted.counted.call link.hands ran _ (fun _ _ => rfl)
    intro object done found returned kept
    rw [created _ done returned]
    exact keeps object done found returned kept
  · rw [hands]
    exact fun _ => Nat.le_refl _

/-! ### The steps of a routine -/

theorem construct_keeps (kind : LinkKind) (globals : LinkGlobals) (attempt : Attempt) :
    (LinkCall.construct kind globals attempt).socket.Keeps 1 :=
  ⟨rfl, rfl⟩

theorem allocate_createdAt (kind : LinkKind) (link : ReconnectLink) (attempt : Attempt)
    (index : Nat) : (link.allocate kind attempt).createdAt index = link.createdAt index := by
  unfold createdAt allocate
  simp only
  rw [List.getElem?_append]
  split
  · rfl
  · rename_i beyond
    rw [List.getElem?_eq_none (l := link.objects) (by omega), List.getElem?_singleton]
    split
    · rfl
    · rfl

theorem Accounted.allocated {kind : LinkKind} {link next : ReconnectLink}
    (accounted : link.Accounted kind) (attempt : Attempt)
    (objects : next.objects = (link.allocate kind attempt).objects)
    (hands : ∀ index, next.hands index =
      link.hands index + if index = link.objects.length then 1 else 0)
    (temps : ∀ temp ∈ next.temps, temp ∈ link.temps ∨ temp = link.objects.length) :
    next.Accounted kind := by
  have unheld := accounted.fresh link.objects.length (Nat.le_refl _)
  have created : ∀ index, next.createdAt index = link.createdAt index := by
    intro index
    rw [createdAt, objects]
    exact allocate_createdAt kind link attempt index
  constructor
  · intro index object found
    rw [objects] at found
    change (link.objects ++ [_])[index]? = some object at found
    rw [List.getElem?_append] at found
    split at found
    · rename_i old
      rw [hands, if_neg (by omega)]
      exact accounted.counted index object found
    · rename_i beyond
      have isNew : index = link.objects.length := by
        have within := (List.getElem?_eq_some_iff.mp found).1
        rw [List.length_singleton] at within
        omega
      rw [isNew, Nat.sub_self, List.getElem?_cons_zero, Option.some.injEq] at found
      rw [hands, if_pos isNew, isNew, unheld, ← found]
      exact construct_keeps kind link.globals attempt
  · intro index
    rw [hands]
    split
    · rename_i isNew
      rw [isNew]
      omega
    · exact accounted.single index
  · intro index beyond
    rw [objects] at beyond
    change (link.objects ++ [_]).length ≤ index at beyond
    rw [List.length_append, List.length_singleton] at beyond
    rw [hands, if_neg (by omega)]
    exact accounted.fresh index (by omega)
  · intro temp member
    rw [created]
    rcases temps temp member with known | isNew
    · exact accounted.uncreated temp known
    · rw [isNew, createdAt, List.getElem?_eq_none (Nat.le_refl _)]
      rfl

section Around

variable {kind : LinkKind} {link next : ReconnectLink} {before after : List Routine}
  {old new : Routine}

theorem hands_around (next : ReconnectLink) (whole : link.routines = before ++ old :: after)
    (exchanged : next.routines = before ++ new :: after)
    (current : next.current = link.current) (index : Nat) :
    next.hands index + (if old.holds index then 1 else 0) =
      link.hands index + (if new.holds index then 1 else 0) := by
  rw [hands, hands, current, whole, exchanged, List.countP_append, List.countP_append,
    List.countP_cons, List.countP_cons]
  omega

theorem hands_held (whole : link.routines = before ++ old :: after) (index : Nat)
    (held : old.holds index = true) :
    link.hands index = (if link.current = some index then 1 else 0) +
      (before ++ after).countP (Routine.holds index) + 1 := by
  rw [hands, whole, List.countP_append, List.countP_append, List.countP_cons, if_pos held]
  omega

theorem mem_temps_split (whole : link.routines = before ++ old :: after) (temp : Nat) :
    temp ∈ link.temps ↔
      old.temp = some temp ∨ temp ∈ (before ++ after).filterMap Routine.temp := by
  rw [ReconnectLink.temps, whole, List.filterMap_append, List.filterMap_append,
    List.filterMap_cons]
  cases old.temp with
  | none => simp
  | some found =>
      simp only [List.mem_append, List.mem_cons, Option.some.injEq]
      rw [eq_comm (a := found)]
      exact or_left_comm

theorem mem_temps_around_subset (whole : link.routines = before ++ old :: after)
    (exchanged : next.routines = before ++ new :: after) (temp : Nat)
    (member : temp ∈ next.temps) : temp ∈ link.temps ∨ new.temp = some temp := by
  rw [mem_temps_split exchanged] at member
  rw [mem_temps_split whole]
  rcases member with isNew | other
  · exact Or.inr isNew
  · exact Or.inl (Or.inr other)

theorem Accounted.moved (accounted : link.Accounted kind)
    (objects : next.objects = link.objects) (current : next.current = link.current)
    (whole : link.routines = before ++ old :: after)
    (exchanged : next.routines = before ++ new :: after)
    (holds : ∀ index, new.holds index = old.holds index)
    (temp : ∀ temp, new.temp = some temp → old.temp = some temp) : next.Accounted kind := by
  have hands : next.hands = link.hands := by
    funext index
    have around := hands_around next whole exchanged current index
    rw [holds] at around
    omega
  apply accounted.fewer
  · rw [objects, hands]
    exact accounted.counted
  · rw [hands]
    exact fun _ => Nat.le_refl _
  · rw [objects]
  · intro index member
    rw [createdAt, objects]
    apply accounted.uncreated
    rcases mem_temps_around_subset whole exchanged index member with known | isNew
    · exact known
    · rw [mem_temps_split whole]
      exact Or.inl (temp index isNew)

end Around

section Proceeding

variable {kind : LinkKind} {link next : ReconnectLink} {index : Nat}
  {before after : List Routine} {attempt : Attempt} {setup : Setup}

theorem Accounted.connecting (accounted : link.Accounted kind)
    (whole : link.routines = before ++ .connecting :: after)
    (exchanged : ∀ new, link.routines.set index new = before ++ new :: after)
    (ran : link.proceed kind index attempt setup .connecting = some next) :
    next.Accounted kind := by
  have works : ∀ routine : Routine, (∀ other, routine.holds other =
      decide (link.objects.length = other)) → routine.temp = some link.objects.length →
      ((link.allocate kind attempt).atRoutine index routine).Accounted kind := by
    intro routine holds held
    refine accounted.allocated attempt rfl ?_ ?_
    · intro other
      have around := hands_around ((link.allocate kind attempt).atRoutine index routine) whole
        (exchanged routine) rfl other
      rw [holds] at around
      simp only [decide_eq_true_iff, eq_comm (a := link.objects.length)] at around
      exact around
    · intro temp member
      rcases mem_temps_around_subset whole (exchanged routine) temp member with known | isNew
      · exact Or.inl known
      · rw [held, Option.some.injEq] at isNew
        exact Or.inr isNew.symm
  cases ran
  split
  · exact works _ (fun _ => rfl) rfl
  · exact works _ (fun _ => rfl) rfl

theorem Accounted.failed {temp : Nat} (accounted : link.Accounted kind)
    (whole : link.routines = before ++ .failed temp :: after)
    (exchanged : ∀ new, link.routines.set index new = before ++ new :: after)
    (ran : link.proceed kind index attempt setup (.failed temp) = some next) :
    next.Accounted kind := by
  obtain ⟨closed, closing, same⟩ := Option.map_eq_some_iff.mp ran
  subst same
  have held := hands_held whole temp (decide_eq_true rfl)
  have still : closed.Accounted kind := by
    apply accounted.call _ _ closing
    · exact fun call done returned => (LinkCall.closeSocket_returned call done returned).created
    · intro object done _ returned
      rw [held, Nat.add_right_comm]
      exact (LinkCall.closeSocket_returned _ done returned).keeps _
  obtain ⟨_, _, _, _, same⟩ := call_cases link closed temp _ closing
  have routines : closed.routines = link.routines := by rw [same]
  have dropping : (closed.atRoutine index (.dropping temp)).routines =
      before ++ .dropping temp :: after := by
    change closed.routines.set index _ = _
    rw [routines]
    exact exchanged _
  exact still.moved rfl rfl (routines.trans whole) dropping (fun _ => rfl) (fun _ => nofun)

theorem Accounted.dropping {object : Nat} (accounted : link.Accounted kind)
    (whole : link.routines = before ++ .dropping object :: after)
    (exchanged : ∀ new, link.routines.set index new = before ++ new :: after)
    (ran : link.proceed kind index attempt setup (.dropping object) = some next) :
    next.Accounted kind := by
  obtain ⟨released, releasing, same⟩ := Option.map_eq_some_iff.mp ran
  subst same
  have still := release_still link released object releasing
  have held := hands_held whole object (decide_eq_true rfl)
  have finished : (released.atRoutine index .finished).routines =
      before ++ .finished :: after := by
    change released.routines.set index _ = _
    rw [still.routines]
    exact exchanged _
  have less : ∀ other, (released.atRoutine index .finished).hands other +
      (if object = other then 1 else 0) = link.hands other := by
    intro other
    have around := hands_around (released.atRoutine index .finished) whole finished
      still.current other
    simp only [Routine.holds, decide_eq_true_iff, Bool.false_eq_true, if_false,
      Nat.add_zero] at around
    exact around
  apply accounted.fewer
  · apply Counted.call _ accounted.counted releasing
    · intro dropped done _ returned kept
      cases returned
      rw [← less object, if_pos rfl, Nat.add_right_comm] at kept
      exact ClientSocket.Keeps.releaseRef kept
    · intro other different
      have same := less other
      rw [if_neg (Ne.symm different)] at same
      exact same
  · intro other
    rw [← less other]
    exact Nat.le_add_right _ _
  · exact still.length
  · intro temp member
    have sameCreated : released.createdAt temp = link.createdAt temp :=
      call_createdAt_same LinkCall.releaseRef_created releasing temp
    apply sameCreated.trans
    apply accounted.uncreated
    exact (mem_temps_around_subset whole finished temp member).resolve_right nofun

theorem initialized_counted {temp : Nat} {hands : Nat → Nat}
    (ran : link.initializeSocket kind temp setup = some next)
    (counted : Counted kind link.objects hands) (held : hands temp = 1)
    (unmarked : link.createdAt temp = false) (associated : setup.associated = true) :
    Counted kind next.objects hands := by
  apply counted.call hands ran _ (fun _ _ => rfl)
  intro object made found returned kept
  rw [createdAt, found, Option.any_some] at unmarked
  rw [unmarked, held] at kept
  obtain ⟨marked, keeps⟩ :=
    LinkCall.initializeSocket_keeps kind _ made setup 0 associated kept returned
  rw [marked, held]
  exact keeps

/-- The new object's count after `Initialize`, and what the old one has left. -/
theorem exchange_counted {old temp : Nat} {hands : Nat → Nat} (after : Nat → Nat)
    (counted : Counted kind link.objects hands) (different : temp ≠ old)
    (newHeld : hands temp = 1) (unmarked : link.createdAt temp = false)
    (associated : setup.associated = true) (newKept : after temp = 1)
    (oldLeft : after old + (if kind = .ip then 0 else 1) = hands old)
    (others : ∀ other, other ≠ temp → other ≠ old → after other = hands other)
    (ran : link.exchange kind old temp setup = some next) :
    Counted kind next.objects after := by
  have released : ∀ (first second : ReconnectLink), kind ≠ .ip →
      first.release old = some second → Counted kind first.objects hands →
      Counted kind second.objects after := by
    intro first second notIp done counted
    rw [if_neg notIp] at oldLeft
    apply counted.call after done
    · intro object made _ returned kept
      cases returned
      rw [← oldLeft, Nat.add_right_comm] at kept
      exact ClientSocket.Keeps.releaseRef kept
    · intro other notOld
      by_cases isTemp : other = temp
      · rw [isTemp, newKept, newHeld]
      · exact others other isTemp notOld
  cases kind with
  | ip =>
      have same : after = hands := by
        funext other
        by_cases isTemp : other = temp
        · rw [isTemp, newKept, newHeld]
        · by_cases isOld : other = old
          · rw [isOld]
            exact oldLeft
          · exact others other isTemp isOld
      rw [same]
      have made := initialized_counted ran counted newHeld unmarked associated
      exact made
  | log =>
      obtain ⟨middle, first, second⟩ := Option.bind_eq_some_iff.mp ran
      have made := initialized_counted first counted newHeld unmarked associated
      exact released middle next nofun second made
  | wanted =>
      obtain ⟨middle, first, second⟩ := Option.bind_eq_some_iff.mp ran
      have stillUnmarked : middle.createdAt temp = false :=
        (call_createdAt first temp different).trans unmarked
      exact initialized_counted second (released _ middle nofun first counted) newKept
        stillUnmarked associated

theorem exchange_createdAt {old temp : Nat} (ran : link.exchange kind old temp setup = some next)
    (other : Nat) (different : other ≠ temp) : next.createdAt other = link.createdAt other := by
  have initialized : ∀ first second : ReconnectLink,
      first.initializeSocket kind temp setup = some second →
      second.createdAt other = first.createdAt other :=
    fun first second done => call_createdAt done other different
  have released : ∀ first second : ReconnectLink, first.release old = some second →
      second.createdAt other = first.createdAt other :=
    fun first second done => call_createdAt_same LinkCall.releaseRef_created done other
  cases kind with
  | ip =>
      have made := initialized _ next ran
      exact made
  | log =>
      obtain ⟨middle, first, second⟩ := Option.bind_eq_some_iff.mp ran
      have made := initialized _ middle first
      exact (released middle next second).trans made
  | wanted =>
      obtain ⟨middle, first, second⟩ := Option.bind_eq_some_iff.mp ran
      have given := released _ middle first
      exact (initialized middle next second).trans given

/-- The pointer takes the new object over from the routine; the old one is left
to the routine of one class and given back by those of the others. -/
theorem exchange_hands {old temp : Nat} {new : Routine}
    (next : ReconnectLink) (whole : link.routines = before ++ .connected temp :: after)
    (exchanged : next.routines = before ++ new :: after)
    (pointed : link.current = some old) (current : next.current = some temp)
    (holds : ∀ other, new.holds other = decide (kind = .ip ∧ old = other)) (other : Nat) :
    next.hands other + (if kind = .ip then 0 else if old = other then 1 else 0) =
      link.hands other := by
  rw [hands, hands, whole, exchanged, pointed, current, List.countP_append,
    List.countP_append, List.countP_cons, List.countP_cons, holds]
  simp only [Routine.holds, decide_eq_true_iff, Option.some.injEq]
  by_cases isIp : kind = .ip
  · simp only [isIp, true_and, if_true]
    omega
  · simp only [isIp, false_and, if_false]
    omega

theorem Accounted.exchanged {old temp : Nat} {done : ReconnectLink} {new : Routine}
    (accounted : link.Accounted kind)
    (whole : link.routines = before ++ .connected temp :: after)
    (exchanged : (done.atRoutine index new).routines = before ++ new :: after)
    (pointed : link.current = some old)
    (holds : ∀ other, new.holds other = decide (kind = .ip ∧ old = other))
    (empty : new.temp = none) (associated : setup.associated = true)
    (ran : link.exchange kind old temp setup = some done) :
    (done.atRoutine index new).Accounted kind := by
  have touched := exchange_touched kind link done old temp setup ran
  have single := accounted.single temp
  have held := hands_held whole temp (decide_eq_true rfl)
  rw [pointed] at held
  have different : temp ≠ old := by
    intro same
    rw [same, if_pos rfl] at held
    rw [same] at single
    omega
  have isTemp : temp ∈ link.temps := (mem_temps_split whole temp).mpr (Or.inl rfl)
  have unmarked := accounted.uncreated temp isTemp
  have hands := exchange_hands (done.atRoutine index new) whole exchanged pointed
    touched.current holds
  have newHands := hands temp
  rw [if_neg (Ne.symm different), ite_self] at newHands
  apply accounted.fewer
  · apply exchange_counted _ accounted.counted different (by omega) unmarked associated
      (by omega) _ _ ran
    · have left_ := hands old
      rw [if_pos rfl] at left_
      exact left_
    · intro other _ notOld
      have same := hands other
      rw [if_neg (Ne.symm notOld), ite_self] at same
      exact same
  · intro other
    rw [← hands other]
    exact Nat.le_add_right _ _
  · exact touched.length
  · intro other member
    rw [mem_temps_split exchanged, empty] at member
    have inOthers := member.resolve_left nofun
    have notTemp : other ≠ temp := by
      intro same
      rw [same] at inOthers
      obtain ⟨routine, present, isTemp⟩ := List.mem_filterMap.mp inOthers
      have positive : 0 < (before ++ after).countP (Routine.holds temp) :=
        List.countP_pos_iff.mpr ⟨routine, present, routine.holds_temp isTemp⟩
      omega
    apply (exchange_createdAt ran other notTemp).trans
    apply accounted.uncreated
    exact (mem_temps_split whole other).mpr (Or.inr inOthers)

theorem Accounted.connected {temp : Nat} (accounted : link.Accounted kind)
    (whole : link.routines = before ++ .connected temp :: after)
    (exchanged : ∀ new, link.routines.set index new = before ++ new :: after)
    (associated : setup.associated = true)
    (ran : link.proceed kind index attempt setup (.connected temp) = some next) :
    next.Accounted kind := by
  obtain ⟨old, pointed, exchanging⟩ := Option.bind_eq_some_iff.mp ran
  obtain ⟨done, entered, same⟩ := Option.map_eq_some_iff.mp exchanging
  subst same
  have routines := (exchange_touched kind link done old temp setup entered).routines
  have around : ∀ new, (done.atRoutine index new).routines = before ++ new :: after := by
    intro new
    change done.routines.set index new = _
    rw [routines]
    exact exchanged new
  by_cases isIp : kind = .ip
  · rw [if_pos isIp]
    apply accounted.exchanged whole (around _) pointed _ rfl associated entered
    intro other
    exact decide_eq_decide.mpr ⟨fun same => ⟨isIp, same⟩, And.right⟩
  · rw [if_neg isIp]
    apply accounted.exchanged whole (around _) pointed _ rfl associated entered
    intro other
    exact (decide_eq_false (fun both => isIp both.1)).symm

theorem enrol_hands (attempt : Attempt) (unstarted : link.current = none)
    (other : Nat) : (link.enrol kind attempt).hands other =
      link.hands other + if other = link.objects.length then 1 else 0 := by
  change (if some link.objects.length = some other then 1 else 0) + link.routines.countP _ = _
  rw [hands, unstarted, Nat.add_comm]
  simp only [Option.some.injEq, eq_comm (a := link.objects.length), reduceCtorEq, if_false,
    Nat.zero_add]

theorem Accounted.enrol (accounted : link.Accounted kind) (attempt : Attempt)
    (unstarted : link.current = none) :
    (link.enrol kind attempt).Accounted kind ∧
      (link.enrol kind attempt).hands link.objects.length = 1 := by
  have hands : ∀ other, (link.enrol kind attempt).hands other =
      link.hands other + if other = link.objects.length then 1 else 0 :=
    enrol_hands attempt unstarted
  constructor
  · exact accounted.allocated attempt rfl hands (fun temp member => Or.inl member)
  · rw [hands, accounted.fresh link.objects.length (Nat.le_refl _), if_pos rfl]

theorem Accounted.initialized {object : Nat} (accounted : link.Accounted kind)
    (held : link.hands object = 1) (pointed : link.current = some object)
    (unmarked : link.createdAt object = false) (associated : setup.associated = true)
    (ran : link.initializeSocket kind object setup = some next) : next.Accounted kind := by
  have counted := initialized_counted ran accounted.counted held unmarked associated
  obtain ⟨_, _, _, _, same⟩ := call_cases _ next _ _ ran
  have length : next.objects.length = link.objects.length := by
    rw [same]
    exact List.length_set
  have routines : next.routines = link.routines := by rw [same]
  have sameHands : next.hands = link.hands := hands_congr (by rw [same]) routines
  apply accounted.fewer
  · rw [sameHands]
    exact counted
  · rw [sameHands]
    exact fun _ => Nat.le_refl _
  · exact length
  · intro temp member
    rw [ReconnectLink.temps, routines] at member
    have other : temp ≠ object := by
      intro isObject
      obtain ⟨routine, present, isTemp⟩ := List.mem_filterMap.mp member
      have positive : 0 < link.routines.countP (Routine.holds temp) :=
        List.countP_pos_iff.mpr ⟨routine, present, routine.holds_temp isTemp⟩
      rw [hands, if_pos pointed, ← isObject] at held
      omega
    exact (call_createdAt ran temp other).trans (accounted.uncreated temp member)

theorem Accounted.startUp (accounted : link.Accounted kind)
    (associated : attempt.outcome = .connected → setup.associated = true)
    (ran : link.startUp kind attempt setup = some next) : next.Accounted kind := by
  unfold ReconnectLink.startUp at ran
  split at ran
  · rename_i unstarted
    obtain ⟨enrolled, held⟩ := accounted.enrol attempt unstarted.1
    split at ran
    · rename_i connected
      have unmarked : (link.enrol kind attempt).createdAt link.objects.length = false := by
        apply (allocate_createdAt kind link attempt _).trans
        rw [createdAt, List.getElem?_eq_none (Nat.le_refl _)]
        rfl
      exact enrolled.initialized held rfl unmarked (associated connected) ran
    · apply enrolled.call _ _ ran
      · exact fun call done returned => (LinkCall.closeSocket_returned call done returned).created
      · intro object done _ returned
        rw [held, Nat.add_comm]
        exact (LinkCall.closeSocket_returned _ done returned).keeps _
  · cases ran

end Proceeding

theorem Accounted.fire {kind : LinkKind} {link : ReconnectLink} (accounted : link.Accounted kind)
    (globals : LinkGlobals) :
    Accounted kind { link with globals := globals, routines := link.routines ++ [.fired] } := by
  have sameHands : hands { link with
      globals := globals, routines := link.routines ++ [.fired] } = link.hands := by
    funext index
    rw [hands, hands, List.countP_append]
    rfl
  constructor
  · rw [sameHands]
    exact accounted.counted
  · rw [sameHands]
    exact accounted.single
  · rw [sameHands]
    exact accounted.fresh
  · intro temp member
    change temp ∈ (link.routines ++ [Routine.fired]).filterMap Routine.temp at member
    rw [List.filterMap_append] at member
    exact accounted.uncreated temp ((List.mem_append.mp member).resolve_right List.not_mem_nil)

/-! ### Every event -/

/-- The handle of an initialized object can be associated, and a successful
send completion reports the size of the buffer that was sent. -/
def Regular (link : ReconnectLink) : LinkEvent → Prop
  | .startUp attempt setup => attempt.outcome = .connected → setup.associated = true
  | .routine index _ setup =>
      ∀ temp, link.routines[index]? = some (.connected temp) → setup.associated = true
  | .io index event =>
      ∀ object, link.objects[index]? = some object →
        LinkCall.Regular ⟨link.globals, object.socket, object.created⟩ event
  | _ => True

theorem Accounted.step {kind : LinkKind} {link next : ReconnectLink}
    (accounted : link.Accounted kind) (event : LinkEvent) (regular : link.Regular event)
    (stepped : link.step kind event = some next) : next.Accounted kind := by
  cases event with
  | startUp attempt setup => exact accounted.startUp regular stepped
  | fire timer =>
      obtain ⟨_, fired⟩ := Option.ite_none_right_eq_some.mp stepped
      cases fired
      exact accounted.fire _
  | routine index attempt setup =>
      obtain ⟨routine, found, ran⟩ := Option.bind_eq_some_iff.mp stepped
      obtain ⟨before, after, whole, exchanged⟩ := set_around found
      cases routine with
      | fired =>
          cases ran
          exact accounted.moved rfl rfl whole (exchanged _) (fun _ => rfl) (fun _ => nofun)
      | checking =>
          cases ran
          split
          · exact accounted.moved rfl rfl whole (exchanged _) (fun _ => rfl) (fun _ => nofun)
          · exact accounted.moved rfl rfl whole (exchanged _) (fun _ => rfl) (fun _ => nofun)
      | connecting => exact accounted.connecting whole exchanged ran
      | failed temp => exact accounted.failed whole exchanged ran
      | connected temp => exact accounted.connected whole exchanged (regular temp found) ran
      | dropping object => exact accounted.dropping whole exchanged ran
      | finished => cases ran
  | io index event =>
      have ran : link.call index (fun call => call.complete kind event) = some next := stepped
      apply accounted.call _ _ ran
      · intro call done returned
        exact (LinkCall.complete_returns kind call done event returned).created
      · intro object done found returned
        exact (LinkCall.complete_returns kind _ done event returned).keeps
          (regular object found) _
  | send sending =>
      obtain ⟨index, pointed, ran⟩ := Option.bind_eq_some_iff.mp stepped
      apply accounted.call _ _ ran
      · exact fun call done returned =>
          (LinkCall.send_returned kind sending call done returned).created
      · intro object done _ returned
        rw [hands, if_pos pointed, Nat.add_assoc, Nat.add_comm]
        exact (LinkCall.send_returned kind sending _ done returned).keeps _

/-- No count is below zero, zero destroys, and what is closed and drained and in
nobody's hands any more has come to zero. -/
def Repaid (link : ReconnectLink) : Prop :=
  ∀ index object, link.objects[index]? = some object →
    0 ≤ object.socket.refcount ∧
      (object.socket.deleted = true ↔ object.socket.refcount = 0) ∧
      (object.socket.handleOpen = false → object.socket.outstanding = 0 →
        link.hands index = 0 → object.socket.refcount = 0)

/-- In a regular run a replaced object comes down to what `OnCreate` took. -/
theorem Accounted.replaced_count {kind : LinkKind} {link : ReconnectLink}
    (accounted : link.Accounted kind) (index : Nat) (object : LinkObject)
    (found : link.objects[index]? = some object) (drained : object.socket.outstanding = 0)
    (replaced : link.hands index = 0) :
    object.socket.refcount = surplus kind object.created := by
  have counted := (accounted.counted index object found).1
  rw [drained, replaced] at counted
  rw [counted]
  omega

/-- Only the current object still has what its `OnCreate` took. -/
def Unburdened (kind : LinkKind) (link : ReconnectLink) : Prop :=
  ∀ index, link.createdAt index = true → kind = .log ∨ link.current = some index

theorem Accounted.repaid {kind : LinkKind} {link : ReconnectLink}
    (accounted : link.Accounted kind) (unburdened : link.Unburdened kind) : link.Repaid := by
  intro index object found
  obtain ⟨counted, destroyed⟩ := accounted.counted index object found
  refine ⟨by omega, ?_, ?_⟩
  · rw [destroyed, decide_eq_true_iff]
  · intro _ drained replaced
    rw [accounted.replaced_count index object found drained replaced]
    cases created : object.created with
    | false => rfl
    | true =>
        have marked : link.createdAt index = true := by
          rw [createdAt, found, Option.any_some]
          exact created
        rcases unburdened index marked with isLog | isCurrent
        · rw [isLog]
          rfl
        · rw [hands, if_pos isCurrent] at replaced
          omega

/-- What is replaced has not run `OnCreate`, or its class takes nothing there. -/
def ReplacesUncreated (kind : LinkKind) (link : ReconnectLink) : LinkEvent → Prop
  | .routine index _ _ =>
      ∀ temp old, link.routines[index]? = some (.connected temp) → link.current = some old →
        kind = .log ∨ link.createdAt old = false
  | _ => True

theorem Unburdened.of_same {kind : LinkKind} {link next : ReconnectLink}
    (unburdened : link.Unburdened kind) (current : next.current = link.current)
    (created : ∀ index, next.createdAt index = link.createdAt index) :
    next.Unburdened kind := by
  intro index marked
  rw [created] at marked
  rw [current]
  exact unburdened index marked

theorem Unburdened.call {kind : LinkKind} {link next : ReconnectLink} {index : Nat}
    {body : LinkCall → Option LinkCall} (unburdened : link.Unburdened kind)
    (created : ∀ call done, body call = some done → done.created = call.created)
    (ran : link.call index body = some next) : next.Unburdened kind := by
  obtain ⟨_, _, _, _, same⟩ := call_cases link next index body ran
  have current : next.current = link.current := by rw [same]
  exact unburdened.of_same current (call_createdAt_same created ran)

theorem Unburdened.startUp {kind : LinkKind} {link next : ReconnectLink} {attempt : Attempt}
    {setup : Setup} (unburdened : link.Unburdened kind)
    (ran : link.startUp kind attempt setup = some next) : next.Unburdened kind := by
  have called : ∀ body : LinkCall → Option LinkCall, link.current = none →
      (link.enrol kind attempt).call link.objects.length body = some next →
      next.Unburdened kind := by
    intro body unstarted ran other marked
    obtain ⟨_, _, _, _, same⟩ := call_cases _ next _ body ran
    by_cases isNew : other = link.objects.length
    · apply Or.inr
      rw [same, isNew]
      rfl
    · have before : link.createdAt other = true := by
        rw [← allocate_createdAt kind link attempt other]
        exact (call_createdAt ran other isNew).symm.trans marked
      rcases unburdened other before with isLog | isCurrent
      · exact Or.inl isLog
      · rw [unstarted] at isCurrent
        cases isCurrent
  unfold ReconnectLink.startUp at ran
  split at ran
  · rename_i unstarted
    split at ran
    · exact called _ unstarted.1 ran
    · exact called _ unstarted.1 ran
  · cases ran

theorem Unburdened.connected {kind : LinkKind} {link next : ReconnectLink} {index temp : Nat}
    {attempt : Attempt} {setup : Setup} (unburdened : link.Unburdened kind)
    (replaces : ∀ old, link.current = some old → kind = .log ∨ link.createdAt old = false)
    (ran : link.proceed kind index attempt setup (.connected temp) = some next) :
    next.Unburdened kind := by
  obtain ⟨old, pointed, exchanging⟩ := Option.bind_eq_some_iff.mp ran
  obtain ⟨done, entered, same⟩ := Option.map_eq_some_iff.mp exchanging
  subst same
  intro other marked
  by_cases isTemp : other = temp
  · rw [isTemp]
    exact Or.inr (exchange_touched kind link done old temp setup entered).current
  · apply Or.inl
    have before : link.createdAt other = true :=
      (exchange_createdAt entered other isTemp).symm.trans marked
    rcases unburdened other before with isLog | isCurrent
    · exact isLog
    · apply (replaces other isCurrent).resolve_right
      rw [before]
      nofun

theorem Unburdened.step {kind : LinkKind} {link next : ReconnectLink}
    (unburdened : link.Unburdened kind) (event : LinkEvent)
    (replaces : link.ReplacesUncreated kind event)
    (stepped : link.step kind event = some next) : next.Unburdened kind := by
  cases event with
  | startUp attempt setup => exact unburdened.startUp stepped
  | fire timer =>
      obtain ⟨_, fired⟩ := Option.ite_none_right_eq_some.mp stepped
      cases fired
      exact unburdened
  | routine index attempt setup =>
      obtain ⟨routine, found, ran⟩ := Option.bind_eq_some_iff.mp stepped
      cases routine with
      | fired =>
          cases ran
          exact unburdened
      | checking =>
          cases ran
          exact unburdened
      | connecting =>
          cases ran
          exact unburdened.of_same rfl (allocate_createdAt kind link attempt)
      | failed temp =>
          obtain ⟨closed, closing, same⟩ := Option.map_eq_some_iff.mp ran
          subst same
          have kept : closed.Unburdened kind := unburdened.call (fun call done returned =>
            (LinkCall.closeSocket_returned call done returned).created) closing
          exact kept
      | connected temp =>
          exact unburdened.connected (fun old pointed => replaces temp old found pointed) ran
      | dropping object =>
          obtain ⟨released, releasing, same⟩ := Option.map_eq_some_iff.mp ran
          subst same
          have kept : released.Unburdened kind :=
            unburdened.call LinkCall.releaseRef_created releasing
          exact kept
      | finished => cases ran
  | io index event =>
      have ran : link.call index (fun call => call.complete kind event) = some next := stepped
      exact unburdened.call (fun call done returned =>
        (LinkCall.complete_returns kind call done event returned).created) ran
  | send sending =>
      obtain ⟨index, _, ran⟩ := Option.bind_eq_some_iff.mp stepped
      exact unburdened.call (fun call done returned =>
        (LinkCall.send_returned kind sending call done returned).created) ran

/-- In regular runs that replace no object with a reference of `OnCreate`, every
object that is replaced and drained has been destroyed. -/
theorem repaid_throughout (kind : LinkKind) (events : List LinkEvent)
    (guarded : (machine kind).Guarded (fun link event =>
      link.Regular event ∧ link.ReplacesUncreated kind event) start events) :
    (machine kind).Throughout Repaid start events := by
  apply (machine kind).throughout_of_guarded
    (fun link => link.Accounted kind ∧ link.Unburdened kind) Repaid _ _ _
    events start ⟨start_accounted kind, nofun⟩ guarded
  · intro link event next invariant atStep stepped
    exact ⟨invariant.1.step event atStep.1 stepped, invariant.2.step event atStep.2 stepped⟩
  · intro link invariant
    exact invariant.1.repaid invariant.2

def replacedRun (kind : LinkKind) : List LinkEvent :=
  (match kind with
    | .ip => [.startUp (plainAttempt .connected) plainSetup, .io 0 (.sent 1 true)]
    | .log => [.startUp (plainAttempt .connected) plainSetup, .io 0 (.sent 1 true),
        .io 0 (.sent 1 true)]
    | .wanted => [.startUp (plainAttempt .connected) plainSetup]) ++
  [.io 0 (.received [] plainSetup.recv), .fire 0,
    .routine 0 (plainAttempt .connected) plainSetup,
    .routine 0 (plainAttempt .connected) plainSetup,
    .routine 0 (plainAttempt .connected) plainSetup,
    .routine 0 (plainAttempt .connected) plainSetup]

/-- The log server's first connection is destroyed once the second replaces it. -/
theorem replaced_log_socket_repaid :
    (machine .log).Throughout Repaid start (replacedRun .log) ∧
      ((machine .log).run start (replacedRun .log)).map (fun link =>
        (link.hands 0, link.objects.map fun object =>
          (object.socket.refcount, object.socket.deleted))) =
        some (0, [(0, true), (3, false)]) := by
  have proceeds : ∀ link : ReconnectLink,
      link.Regular (.routine 0 (plainAttempt .connected) plainSetup) ∧
        link.ReplacesUncreated .log (.routine 0 (plainAttempt .connected) plainSetup) :=
    fun _ => ⟨fun _ _ => rfl, fun _ _ _ _ => Or.inl rfl⟩
  constructor
  · apply repaid_throughout
    intro next same
    cases same
    refine ⟨⟨fun _ => rfl, trivial⟩, ?_⟩
    intro next same
    cases same
    refine ⟨⟨?_, trivial⟩, ?_⟩
    · intro object found
      cases found
      rfl
    intro next same
    cases same
    refine ⟨⟨?_, trivial⟩, ?_⟩
    · intro object found
      cases found
      rfl
    exact fun _ _ => ⟨⟨fun _ _ => trivial, trivial⟩, fun _ _ => ⟨⟨trivial, trivial⟩,
      fun _ _ => ⟨proceeds _, fun _ _ => ⟨proceeds _, fun _ _ => ⟨proceeds _,
        fun _ _ => ⟨proceeds _, trivial⟩⟩⟩⟩⟩⟩
  · rfl

/-- The wanted server's first connection was established, so it keeps the
reference that its `OnCreate` took. -/
theorem established_socket_never_destroyed :
    ¬ ∀ (kind : LinkKind) (events : List LinkEvent),
      (machine kind).Throughout Repaid start events := by
  intro claimed
  have run := claimed .wanted (replacedRun .wanted)
  have final : Repaid _ :=
    ((((((run.2 _ rfl).2 _ rfl).2 _ rfl).2 _ rfl).2 _ rfl).2 _ rfl).2 _ rfl
  have destroyed : (1 : Int) = 0 := (final 0 _ rfl).2.2 rfl rfl rfl
  contradiction

end ReconnectLink

end AuthServer
