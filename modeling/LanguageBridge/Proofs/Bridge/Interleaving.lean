import LanguageBridge.Proofs.Bridge.Handlers
import LanguageBridge.Proofs.Bridge.Issuing

namespace LanguageBridge

/-! Whatever happens to a bridge, in any order: its runs stay sound, and every document has been
brought to its child server or will be. -/

namespace Run

/-- What an event may lead to: child servers are told about documents, or they are asked. -/
def Moves (confined : Prop) (before after : Run) : Prop :=
  Goes confined Effect.NoRequest before after ∨
    Goes confined (Effect.Asking confined after.bridge) before after

variable {confined : Prop} {run before middle after : Run} {task : Nat} {errand : Errand}

theorem Carries.moves (carries : Carries confined errand before after) :
    Moves confined before after := by
  cases errand with
  | sync host languages => exact Or.inl carries.toGoes
  | ask requests recipient chosen => exact Or.inr carries.toGoes
  | _ => exact Or.inl (carries.toGoes.mono fun _ => Effect.Plain.noRequest)

theorem Carries.moves_other (carries : Carries confined .other middle after)
    (effects : before.bridge.wire.Adds Effect.NoRequest middle.bridge.wire) :
    Moves confined before after :=
  Or.inl ((carries.toGoes.mono fun _ => Effect.Plain.noRequest).preceded effects)

theorem Ends.moves (ends : Ends task errand run after) (sound : run.Sound confined)
    (settled : run.Settled) (unbound : run.Unbound task) : Moves confined run after :=
  ((ends.passes sound).carries sound (settled.covers unbound "" []) errand).moves

theorem Settled.aside (settled : before.Settled) (aside : before.bridge.Aside after.bridge)
    (tasks : ∀ task, after.tasks.get? task = before.tasks.get? task) : after.Settled := by
  intro host language document held
  rw [aside.store] at held
  simp only [Owes, OwedBy, tasks]
  exact (settled host language document held).imp_left aside.told

/-- Nothing happens to the tasks and nothing that a child server would notice. -/
theorem Moves.aside (sound : after.Sound confined) (settled : before.Settled)
    (aside : before.bridge.Aside after.bridge)
    (tasks : ∀ task, after.tasks.get? task = before.tasks.get? task) :
    Moves confined before after :=
  Or.inl ⟨sound, settled.aside aside tasks, aside.effects.mono fun _ => Effect.Silent.noRequest⟩

theorem Moves.of_wire (moves : Moves confined middle after)
    (same : middle.bridge.wire = before.bridge.wire) : Moves confined before after :=
  moves.imp (·.preceded (same ▸ .refl _)) (·.preceded (same ▸ .refl _))

/-- What is entered in the table of pending requests is of no concern to child servers. -/
theorem OnTurn.ask (onTurn : OnTurn confined task .other run) (router : Router)
    {contexts : List Context} (recipient : Recipient)
    (addressed : confined → ∀ context ∈ contexts, context.Addressed) :
    OnTurn confined task (.ask contexts recipient none)
      (run.setBridge { run.bridge with router := router }) := by
  have aside : run.bridge.Aside { run.bridge with router := router } :=
    ⟨rfl, rfl, rfl, rfl, rfl, .refl _⟩
  have rerouted := (onTurn.aside aside).onTurn
  exact ⟨rerouted.sound, rerouted.below, ⟨addressed, fun _ isChosen => by cases isChosen⟩,
    rerouted.covers, False.elim⟩

namespace Sound

section

variable (sound : run.Sound confined)
include sound

theorem unbound_of_held {activity : Activity} (held : run.tasks.get? task = some activity)
    (other : ∀ host language rest, activity ≠ .syncing host language rest) : run.Unbound task := by
  refine ⟨(sound.tasks task activity held).1, fun host language rest syncing => ?_⟩
  rw [held] at syncing
  exact other host language rest (Option.some.inj syncing)

/-! ### One job -/

/-- A task that was blocked takes its turn with what it owed while it waited. -/
theorem onTurn (settled : run.Settled) {activity : Activity}
    (held : run.tasks.get? task = some activity) {signal : Signal}
    (meant : activity.awaited? = none ∨ ∃ outcome, signal = .started outcome)
    (raised : ∀ fault, signal = .started (.error fault) → ¬ Link.RootKnown run.bridge.root) :
    OnTurn confined task (activity.errand signal) run := by
  obtain ⟨below, fits⟩ := sound.tasks task activity held
  cases activity with
  | syncing host language rest =>
    rcases meant with other | ⟨outcome, rfl⟩
    · contradiction
    · have free : ¬ run.Refers task := fun referred =>
        (sound.unbound task referred).2 host language rest held
      have covers := settled.covers_syncing held
      rcases outcome with fault | up
      · refine ⟨sound, below, trivial, fun wanted wantedLanguage document _ => ?_, False.elim⟩
        exact Or.inl ((sound.bridge.down_of_unknown_root (raised fault rfl) wantedLanguage).told _ _)
      · cases up with
        | false => exact ⟨sound, below, trivial, covers, fun _ => free⟩
        | true => exact ⟨sound, below, trivial, covers.cons language, fun _ => free⟩
  | requesting context server recipient =>
    refine ⟨sound, below, ⟨fun isConfined other member => ?_, fun chosen isChosen => ?_⟩,
      settled.covers (sound.unbound_of_held held nofun) _ _, False.elim⟩
    · rw [List.mem_singleton.mp member]
      exact fits.1 isConfined
    · cases isChosen
      exact ⟨fun none => (nomatch none), context.language, fits.2, fun _ member => by rw [List.mem_singleton.mp member]⟩
  | answering context recipient =>
    refine ⟨sound, below, ⟨fun isConfined other member => ?_, fun _ isChosen => by cases isChosen⟩,
      settled.covers (sound.unbound_of_held held nofun) _ _, False.elim⟩
    rw [List.mem_singleton.mp member]
    exact fits isConfined
  | querying parent index =>
    exact ⟨sound, below, ⟨fun _ _ member => (nomatch member), fun _ isChosen => by cases isChosen⟩,
      settled.covers (sound.unbound_of_held held nofun) _ _, False.elim⟩
  | _ =>
    exact ⟨sound, below, trivial, settled.covers (sound.unbound_of_held held nofun) _ _, False.elim⟩

theorem pop {job : Job} {rest : List Job} (queued : run.ready = job :: rest) :
    ({ run with ready := rest } : Run).Sound confined := by
  have starts : ∀ language, language ∈ rest.filterMap Job.start? →
      language ∈ run.ready.filterMap Job.start? := by
    intro language member
    obtain ⟨other, inRest, isStart⟩ := List.mem_filterMap.mp member
    exact List.mem_filterMap.mpr ⟨other, queued ▸ List.mem_cons_of_mem _ inRest, isStart⟩
  refine ⟨sound.bridge, sound.tasks, ?_, ?_, sound.faults, ?_, ?_, ?_⟩
  · exact fun other inRest => sound.jobs other (queued ▸ List.mem_cons_of_mem _ inRest)
  · rintro task (⟨other, inRest, named⟩ | inGroup)
    · exact sound.unbound task (Or.inl ⟨other, queued ▸ List.mem_cons_of_mem _ inRest, named⟩)
    · exact sound.unbound task (Or.inr inGroup)
  · have once := sound.starts.once
    rw [queued] at once
    exact once.sublist ((List.sublist_cons_self job rest).filterMap Job.start?)
  · exact fun language member => sound.starts.known language (starts language member)
  · intro task language server stage held
    have begun := sound.starts.begun task language server stage held
    exact ⟨fun member => begun.unqueued (starts language member), begun.known, begun.only⟩

/-- While a start is in the queue, nobody else works on it. -/
theorem unstarted {job : Job} {rest : List Job} {language : String}
    (queued : run.ready = job :: rest) (isStart : job.start? = some language) :
    language ∉ rest.filterMap Job.start? ∧ (run.startUps.get? language).isSome ∧
      ∀ task server stage, run.tasks.get? task ≠ some (.launching language server stage) := by
  have queue : run.ready.filterMap Job.start? = language :: rest.filterMap Job.start? := by
    rw [queued, List.filterMap_cons_some isStart]
  have member : language ∈ run.ready.filterMap Job.start? := queue ▸ List.mem_cons_self
  refine ⟨?_, sound.starts.known language member, fun task server stage held => ?_⟩
  · have once := sound.starts.once
    rw [queue] at once
    exact (List.nodup_cons.mp once).1
  · exact (sound.starts.begun task language server stage held).unqueued member

theorem forget {language : String} (unqueued : language ∉ run.ready.filterMap Job.start?)
    (idle : ∀ task server stage, run.tasks.get? task ≠ some (.launching language server stage)) :
    ({ run with startUps := run.startUps.erase language } : Run).Sound confined := by
  have kept : ∀ wanted, wanted ≠ language → (run.startUps.get? wanted).isSome →
      ((run.startUps.erase language).get? wanted).isSome := by
    intro wanted different known
    rw [Table.get?_erase, if_neg different]
    exact known
  refine ⟨sound.bridge, sound.tasks, sound.jobs, sound.unbound, ?_, sound.starts.once, ?_, ?_⟩
  · exact fun wanted startUp fault found =>
      sound.faults wanted startUp fault (Table.of_get?_erase found).2
  · intro wanted queued
    refine kept wanted ?_ (sound.starts.known wanted queued)
    rintro rfl
    exact unqueued queued
  · intro task wanted server stage held
    have begun := sound.starts.begun task wanted server stage held
    refine ⟨begun.unqueued, kept wanted ?_ begun.known, begun.only⟩
    rintro rfl
    exact idle task server stage held

theorem notes {parent : Nat} (notes : run.Notes parent after) :
    after.Sound confined ∧ run.bridge.Aside after.bridge ∧
      ∀ task, after.tasks.get? task = run.tasks.get? task := by
  rcases notes with rfl | ⟨earlier, group, found, same, _, rfl⟩
  · exact ⟨sound, .refl _, fun _ => rfl⟩
  · refine ⟨sound.regroup _ fun other later otherFound member isMember => ?_, .refl _, fun _ => rfl⟩
    rcases Table.of_get?_put otherFound with ⟨rfl, rfl⟩ | ⟨_, old⟩
    · exact sound.unbound member (Or.inr ⟨_, earlier, found, same ▸ isMember⟩)
    · exact sound.unbound member (Or.inr ⟨other, later, old, isMember⟩)

theorem worked {job : Job} {rest : List Job} (settled : run.Settled)
    (queued : run.ready = job :: rest) (worked : Worked { run with ready := rest } job after) :
    Moves confined { run with ready := rest } after := by
  have popped := sound.pop queued
  have poppedSettled : ({ run with ready := rest } : Run).Settled := settled
  have fits := sound.jobs job (queued ▸ List.mem_cons_self)
  have unbound : ∀ task, job.task? = some task → run.Unbound task := fun task named =>
    sound.unbound task (Or.inl ⟨job, queued ▸ List.mem_cons_self, named⟩)
  cases worked with
  | begun joins turn =>
    have free := unbound _ joins.task
    exact (turn.carries ⟨popped, free.1, fits.errand, poppedSettled.covers free _ _,
      fun brings => absurd brings job.not_brings⟩).moves
  | withheld joins cancelled ends => exact ends.moves popped poppedSettled (unbound _ joins.task)
  | @launch task language server after launched =>
    obtain ⟨unqueued, known, idle⟩ := sound.unstarted queued rfl
    have aside : run.bridge.Aside { run.bridge with
        speakers := run.bridge.speakers.put (run.bridge.link server).server.language server } :=
      ⟨rfl, rfl, rfl, rfl, rfl, .refl _⟩
    have goes := launched.goes (popped.aside aside) (poppedSettled.aside aside fun _ => rfl)
      (unbound task rfl)
      ⟨unqueued, known, fun other server stage held => absurd held (idle other server stage)⟩ fits
      (Link.start_launches (popped.bridge.servers language server fits).2.up)
    exact Or.inl (goes.preceded (.refl _))
  | @relaunched task language server stage reply after held launched =>
    obtain ⟨found, waiting⟩ := (popped.tasks task _ held).2
    exact Or.inl (launched.goes popped poppedSettled (popped.unbound_of_held held nofun)
      (popped.starts.begun task language server stage held) found
      (Link.resumeStart_launches waiting reply))
  | resumed held other meant turn =>
    refine (turn.carries (popped.onTurn poppedSettled held meant ?_)).moves
    rintro fault rfl
    exact fits
  | abandoned held ends => exact ends.moves popped poppedSettled (unbound _ rfl)
  | ignored idle => exact .aside popped poppedSettled (.refl _) fun _ => rfl
  | @stopped task activity signal held stops =>
    have serves := (popped.tasks task activity held).2
    cases activity <;> first | exact absurd trivial stops | exact absurd serves stops
  | forgotten language =>
    obtain ⟨unqueued, _, idle⟩ := sound.unstarted queued rfl
    exact .aside (popped.forget unqueued idle) poppedSettled (.refl _) fun _ => rfl
  | relayed task outcome =>
    refine .aside (popped.enqueue ?_ ?_ rfl) poppedSettled (.refl _) fun _ => rfl
    · intro job isResume
      rw [List.mem_singleton.mp isResume]
      cases outcome with
      | ok up => trivial
      | error fault => exact fits
    · intro job isResume other named
      rw [List.mem_singleton.mp isResume] at named
      contradiction
  | noted notes =>
    obtain ⟨noted, aside, tasks⟩ := popped.notes notes
    exact .aside noted poppedSettled aside tasks
  | woken notes =>
    obtain ⟨noted, aside, tasks⟩ := popped.notes notes
    exact .aside (noted.enqueue (by simp [Job.Fits]) (by simp [Job.task?]) rfl) poppedSettled aside
      tasks

theorem step (settled : run.Settled) {next : Run} (stepped : run.step? = some next) :
    Moves confined run next := by
  unfold Run.step? at stepped
  split at stepped
  · contradiction
  · rename_i job rest queued
    cases stepped
    -- taking a job from the queue is seen by nobody
    exact (sound.worked settled queued (worked_perform _ job)).of_wire rfl

/-! ### The first step of a command -/

theorem enter (settled : run.Settled) {command : BridgeCommand}
    (permitted : run.Permits (.command command))
    (within : confined → (BridgeEvent.command command).AboutDocuments) :
    Moves confined run (run.enter command) := by
  let entering : Run := { run with nextTask := run.nextTask + 1 }
  have entered : entering.Sound confined := sound.later (Nat.le_succ run.nextTask)
  have unbound : entering.Unbound run.nextTask :=
    ⟨Nat.lt_succ_self _, by simp [entering, sound.next_free]⟩
  have free : ¬ entering.Refers run.nextTask :=
    fun referred => absurd (sound.unbound _ referred).1 (Nat.lt_irrefl _)
  have enteringSettled : entering.Settled := settled
  have idle : OnTurn confined run.nextTask .other entering :=
    ⟨entered, unbound.1, trivial, enteringSettled.covers unbound _ _, False.elim⟩
  have heard (publication : Option (Alias × List Diagnostic)) :=
    Bridge.Aside.hear entering.bridge publication
  have running : command ≠ .shutdown := by
    rintro rfl
    exact permitted
  have turn := run.turn_enter running
  cases command with
  | openHost uri text languageId =>
    obtain ⟨given, untracked, languages⟩ := permitted
    exact (turn.carries (entered.openHost enteringSettled unbound free given untracked
      languages)).moves.of_wire rfl
  | editHost uri text changed =>
    obtain ⟨given, languages⟩ := permitted
    exact (turn.carries (entered.editHost enteringSettled unbound free given
      languages)).moves.of_wire rfl
  | closeHost uri =>
    obtain ⟨onTurn, effects⟩ := entered.closeHost enteringSettled unbound uri
    exact (turn.carries onTurn).moves_other effects
  | dispatch uri position method params =>
    refine (turn.carries (idle.ask _ _ fun _ context member => ?_)).moves.of_wire rfl
    exact Router.route_addressed (Router.of_mem_routed member)
  | dispatchAll uri method params =>
    exact (turn.carries (idle.ask _ _ fun _ _ => Router.fanOut_addressed)).moves.of_wire rfl
  | resolve item =>
    exact (turn.carries (idle.ask _ _ fun isConfined => (within isConfined).elim)).moves.of_wire rfl
  | search query =>
    exact (turn.carries ⟨entered, unbound.1, within, idle.covers, False.elim⟩).moves.of_wire rfl
  | shutdown => contradiction
  | _ =>
    exact (turn.carries (idle.aside (heard _)).onTurn).moves_other
      ((heard _).effects.mono fun _ => Effect.Silent.noRequest)

/-! ### Replies and cancellations -/

theorem free (settled : run.Settled) {key : String} {reply : Reply} {next : Run}
    (freed : run.free? key reply = some next) : Moves confined run next := by
  obtain ⟨task, _, rfl⟩ := Option.map_eq_some_iff.mp freed
  have unheld : ({ run with held := run.held.erase key } : Run).Sound confined :=
    sound.retask rfl rfl rfl rfl (fun _ => rfl) fun _ _ => Or.inl
  exact .aside (unheld.enqueue (by simp [Job.Fits]) (by simp [Job.task?]) rfl) settled (.refl _)
    fun _ => rfl

theorem interrupt (unbound : run.Unbound task) :
    (run.interrupt task).Sound confined := by
  have unheld : ({ run with
      held := run.held.filterValues (· ≠ task)
      startUps := run.startUps.mapValues fun startUp =>
        { startUp with waiters := startUp.waiters.filter (· ≠ task) } } : Run).Sound confined := by
    refine sound.retask rfl rfl rfl rfl (fun language => ?_) fun _ _ => Or.inl
    rw [Table.get?_mapValues, Option.map_map]
    rfl
  refine unheld.enqueue (by simp [Job.Fits]) ?_ rfl
  intro job isResume other named
  rw [List.mem_singleton.mp isResume] at named
  cases named
  exact unbound

theorem interruptAll {members : List Nat} (unbound : ∀ member ∈ members, run.Unbound member) :
    (members.foldl Run.interrupt run).Sound confined ∧
      (members.foldl Run.interrupt run).bridge = run.bridge ∧
        (members.foldl Run.interrupt run).tasks = run.tasks := by
  induction members generalizing run with
  | nil => exact ⟨sound, rfl, rfl⟩
  | cons member rest ih =>
    exact ih (sound.interrupt (unbound member List.mem_cons_self)) fun other inRest =>
      unbound other (List.mem_cons_of_mem _ inRest)

theorem interruptGroup (settled : run.Settled) {group : Group}
    (found : run.groups.get? task = some group) :
    Moves confined run (run.interruptGroup task group) := by
  have unbound : ∀ member ∈ group.members, run.Unbound member := fun member isMember =>
    sound.unbound member (Or.inr ⟨task, group, found, isMember⟩)
  have marked := sound.regroup (run.groups.put task { group with cancelled := true }) ?_
  · have interrupted : (run.interruptGroup task group).Sound confined ∧
        (run.interruptGroup task group).bridge = run.bridge ∧
          (run.interruptGroup task group).tasks = run.tasks :=
      marked.interruptAll fun member chosen => unbound member (List.mem_filter.mp chosen).1
    obtain ⟨interruptedSound, sameBridge, sameTasks⟩ := interrupted
    exact .aside interruptedSound settled (sameBridge ▸ .refl _) fun other => by rw [sameTasks]
  · intro parent other otherFound member isMember
    rcases Table.of_get?_put otherFound with ⟨rfl, rfl⟩ | ⟨_, old⟩
    · exact unbound member isMember
    · exact sound.unbound member (Or.inr ⟨parent, other, old, isMember⟩)

theorem withdraw (settled : run.Settled) {next : Run} (permitted : run.Permits (.cancel task))
    (withdrawn : run.withdraw? task = some next) :
    Moves confined run next := by
  obtain ⟨activity, held, rfl⟩ := Option.map_eq_some_iff.mp withdrawn
  split
  · rename_i group found
    exact sound.interruptGroup settled found
  · exact .aside (sound.interrupt ⟨(sound.tasks task activity held).1, permitted⟩) settled (.refl _)
      fun _ => rfl

theorem proceed (settled : run.Settled) {event : BridgeEvent} (permitted : run.Permits event)
    (within : confined → event.AboutDocuments) :
    Moves confined run (run.act event) := by
  have orSame : ∀ next : Option Run, (∀ after, next = some after → Moves confined run after) →
      Moves confined run (next.getD run) := by
    intro next moves
    cases next with
    | none => exact .aside sound settled (.refl _) fun _ => rfl
    | some after => exact moves after rfl
  cases event with
  | command command => exact sound.enter settled permitted within
  | step => exact orSame run.step? fun _ => sound.step settled
  | reply key reply => exact orSame (run.free? key reply) fun _ => sound.free settled
  | prepare peer call replies =>
    have aside : run.bridge.Aside (run.prepare peer call replies).bridge :=
      ⟨rfl, rfl, rfl, rfl, rfl, .of_effects rfl⟩
    exact .aside (sound.aside aside) settled aside fun _ => rfl
  | cancel task => exact orSame (run.withdraw? task) fun _ => sound.withdraw settled permitted

end

theorem act (sound : run.Sound True) (settled : run.Settled) {event : BridgeEvent}
    (admitted : run.Admits event) :
    Goes True Effect.NoRequest run (run.act event) ∨
      Goes True (Effect.Routed (run.act event).bridge) run (run.act event) := by
  obtain ⟨permitted, about⟩ := admitted.permits
  exact (sound.proceed settled permitted fun _ => about).imp_right
    (·.mono fun _ asking => asking.2 trivial)

end Sound

/-! ### Whole runs -/

section Reached

variable {config : Config} {padding : Padding} {names : LanguageNames} {rules : Option (List Rule)}
  {root : Option String} {publishes : Bool} {editor : Editor} {events : List BridgeEvent}

theorem fresh_sound :
    (fresh config padding names rules root publishes editor).Sound confined where
  bridge := ⟨Store.fresh_proper padding names rules, fun _ _ found => (by cases found),
    List.nodup_nil, fun _ member => (by cases member), fun _ _ found => (by cases found)⟩
  tasks := fun _ _ held => by cases held
  jobs := fun _ member => by cases member
  unbound := by
    rintro task (⟨_, member, _⟩ | ⟨_, _, found, _⟩)
    · cases member
    · cases found
  faults := fun _ _ _ found => by cases found
  starts := ⟨List.nodup_nil, fun _ member => (by cases member), fun _ _ _ _ held => by cases held⟩

theorem fresh_settled : (fresh config padding names rules root publishes editor).Settled :=
  fun _ _ _ found => by cases found

/-- Whatever has happened, every document has been brought to its child server or will be. -/
theorem reached_sound {allowed : Run → BridgeEvent → Prop}
    (within : ∀ run event, allowed run event →
      run.Permits event ∧ (confined → event.AboutDocuments))
    (reached : Reached act allowed
      (fresh config padding names rules root publishes editor) events run) :
    run.Sound confined ∧ run.Settled := by
  refine reached.invariant (fun run => run.Sound confined ∧ run.Settled)
    ⟨fresh_sound, fresh_settled⟩ ?_
  rintro before event isAllowed ⟨sound, settled⟩
  obtain ⟨permitted, about⟩ := within before event isAllowed
  rcases sound.proceed settled permitted about with told | asked
  · exact ⟨told.sound, told.settled⟩
  · exact ⟨asked.sound, asked.settled⟩

theorem reached_settled (reached : Reached act Admits
      (fresh config padding names rules root publishes editor) events run) :
    run.Sound True ∧ run.Settled :=
  reached_sound (fun _ _ admitted => ⟨admitted.permits.1, fun _ => admitted.permits.2⟩) reached

theorem reached_permitted (reached : Reached act Permits
      (fresh config padding names rules root publishes editor) events run) :
    run.Sound False ∧ run.Settled :=
  reached_sound (fun _ _ permitted => ⟨permitted, False.elim⟩) reached

end Reached

end Run

end LanguageBridge
