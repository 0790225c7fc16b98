import LanguageBridge.Proofs.Bridge.Messages
import LanguageBridge.Proofs.Bridge.Starts

namespace LanguageBridge

/-! Turns that tasks take in sound runs. Documents that a task has in hand are brought to their child
servers, or the task owes them while it waits. Requests are about documents and go to the client that
is there. Whatever else a task does reaches no child server. -/

/-! ### What child servers hear -/

namespace Bridge

/-- The child server of a language can be reached by this client. -/
def Connects (bridge : Bridge) (language : String) (client : Nat) : Prop :=
  ∃ server, bridge.current.get? language = some server ∧ (bridge.link server).client? = some client

def Lasts (before after : Bridge) : Prop :=
  ∀ language client, before.Connects language client → after.Connects language client

theorem Keeps.lasts {kind : Effect → Prop} {before after : Bridge} (keeps : before.Keeps kind after)
    (states : ∀ language, SameState language before after) : before.Lasts after := by
  rintro language client ⟨server, found, up⟩
  obtain ⟨sameClient, started⟩ := states language server found
  refine ⟨server, keeps.current _ _ found, ?_⟩
  rw [Link.client?, started, sameClient]
  exact up

end Bridge

/-- A request goes to the client of a server that is up, and is about a document of its language.
Nothing is said about documents. -/
def Effect.Routed (bridge : Bridge) (effect : Effect) : Prop :=
  effect.Quiet ∧ ∀ language client method params,
    effect = .sent language client (.request method params) →
      bridge.Connects language client ∧ ∃ host aliasUri, Alias.encode host language = .ok aliasUri ∧
        params.uri = .ok (.str aliasUri)

theorem Effect.Silent.routed {effect : Effect} (silent : effect.Silent) (bridge : Bridge) :
    effect.Routed bridge := by
  refine ⟨silent.quiet, ?_⟩
  rintro language client method params rfl
  contradiction

/-- What is sent while child servers are asked something. Where requests are confined, all of them
are about documents. -/
def Effect.Asking (confined : Prop) (bridge : Bridge) (effect : Effect) : Prop :=
  effect.Quiet ∧ (confined → effect.Routed bridge)

theorem Effect.Silent.asking {effect : Effect} (silent : effect.Silent) (confined : Prop)
    (bridge : Bridge) : effect.Asking confined bridge :=
  ⟨silent.quiet, fun _ => silent.routed bridge⟩

namespace Errand

/-- What child servers hear while a task takes its turn. -/
def Says (confined : Prop) (bridge : Bridge) : Errand → Effect → Prop
  | sync _ _, effect => effect.NoRequest
  | ask _ _ _, effect => effect.Asking confined bridge
  | _, effect => effect.Plain

theorem says_of_silent {effect : Effect} (silent : effect.Silent) (confined : Prop)
    (bridge : Bridge) (errand : Errand) : errand.Says confined bridge effect := by
  cases errand with
  | sync host languages => exact silent.noRequest
  | ask requests recipient chosen => exact silent.asking confined bridge
  | _ => exact silent.plain

/-- What a task relies on when it has something to do. -/
def Fits (confined : Prop) (bridge : Bridge) : Errand → Prop
  | ask requests _ chosen => (confined → ∀ context ∈ requests, context.Addressed) ∧
      ∀ server, chosen = some server → (requests = [] → ¬ confined) ∧
        ∃ language, bridge.current.get? language = some server ∧
          ∀ context ∈ requests, context.language = language
  | search => ¬ confined
  | _ => True

def host : Errand → String
  | sync host _ => host
  | _ => ""

/-- The languages whose documents a task has in hand. -/
def languages : Errand → List String
  | sync _ languages => languages
  | _ => []

def Brings : Errand → Prop
  | sync _ _ => True
  | _ => False

theorem Fits.kept {confined : Prop} {before after : Bridge} {errand : Errand}
    (fits : errand.Fits confined before)
    (current : ∀ language server, before.current.get? language = some server →
      after.current.get? language = some server) : errand.Fits confined after := by
  cases errand with
  | ask requests recipient chosen =>
    refine ⟨fits.1, fun server isChosen => ?_⟩
    obtain ⟨free, language, found, same⟩ := fits.2 server isChosen
    exact ⟨free, language, current _ _ found, same⟩
  | _ => exact fits

end Errand

theorem Job.Fits.errand {confined : Prop} {bridge : Bridge} {job : Job}
    (fits : job.Fits confined bridge) : job.errand.Fits confined bridge := by
  cases job with
  | send task context parent index =>
    refine ⟨fun isConfined other member => ?_, fun _ isChosen => by cases isChosen⟩
    rw [List.mem_singleton.mp member]
    exact fits isConfined
  | search task server query parent index =>
    obtain ⟨free, language, found⟩ := fits
    refine ⟨fun _ _ member => (nomatch member), fun _ isChosen => ?_⟩
    cases isChosen
    exact ⟨fun _ => free, language, found, fun _ member => (nomatch member)⟩
  | _ => trivial

theorem Job.not_brings (job : Job) : ¬ job.errand.Brings := by
  cases job <;> exact id

/-- No start and no documents are in the hands of a task. -/
def Activity.Calm : Activity → Prop
  | .launching _ _ _ | .syncing _ _ _ => False
  | _ => True

theorem Activity.Calm.not_launching {activity : Activity} (calm : activity.Calm) (language : String)
    (server : Nat) (stage : LaunchStage) : activity ≠ .launching language server stage := by
  rintro rfl
  exact calm

theorem Activity.Calm.not_syncing {activity : Activity} (calm : activity.Calm) :
    ¬ ∃ host language rest, activity = .syncing host language rest := by
  rintro ⟨host, language, rest, rfl⟩
  exact calm

namespace Run

/-- A task takes its turn in a sound run. Child servers may miss documents that it has in hand, and
nobody refers to it as long as it has any. -/
structure OnTurn (confined : Prop) (task : Nat) (errand : Errand) (run : Run) : Prop where
  sound : run.Sound confined
  below : task < run.nextTask
  fits : errand.Fits confined run.bridge
  covers : run.Covers task errand.host errand.languages
  unreferred : errand.Brings → ¬ run.Refers task

/-- What a turn has got the run to. Whoever can be reached before it can be reached afterwards. -/
structure Carries (confined : Prop) (errand : Errand) (before after : Run) : Prop
    extends Goes confined (errand.Says confined after.bridge) before after where
  lasts : before.bridge.Lasts after.bridge

/-- What a task does on its way, whatever the turn comes to. -/
structure OnWay (confined : Prop) (task : Nat) (errand later : Errand) (before after : Run) :
    Prop where
  onTurn : OnTurn confined task later after
  lasts : before.bridge.Lasts after.bridge
  effects : ∀ final, after.bridge.Lasts final →
    before.bridge.wire.Adds (errand.Says confined final) after.bridge.wire

variable {confined : Prop} {run before middle after : Run} {kind : Effect → Prop} {task : Nat}
  {errand later : Errand} {host : String}

theorem OnWay.carries (onWay : OnWay confined task errand later before middle)
    (same : ∀ bridge, later.Says confined bridge = errand.Says confined bridge)
    (carries : Carries confined later middle after) : Carries confined errand before after where
  sound := carries.sound
  settled := carries.settled
  effects := (onWay.effects _ carries.lasts).trans (same _ ▸ carries.effects)
  lasts := fun language client connects =>
    carries.lasts language client (onWay.lasts language client connects)

/-! ### On the way -/

namespace OnTurn

section

variable (onTurn : OnTurn confined task errand run)
include onTurn

theorem keep {bridge : Bridge} (keeps : run.bridge.Keeps kind bridge)
    (states : ∀ language, Bridge.SameState language run.bridge bridge)
    (speaks : ∀ final, bridge.Lasts final → ∀ effect, kind effect →
      errand.Says confined final effect) :
    OnWay confined task errand errand run (run.setBridge bridge) where
  onTurn := ⟨onTurn.sound.keep keeps states, onTurn.below, onTurn.fits.kept keeps.current,
    onTurn.covers.kept keeps rfl, onTurn.unreferred⟩
  lasts := keeps.lasts states
  effects := fun final lasts => keeps.effects.mono (speaks final lasts)

theorem aside {bridge : Bridge} (aside : run.bridge.Aside bridge) :
    OnWay confined task errand errand run (run.setBridge bridge) :=
  onTurn.keep (aside.keeps onTurn.sound.bridge) aside.sameState
    fun final _ _ silent => errand.says_of_silent silent confined final

theorem request {language : String} {server : Nat} {method : Method} {params : Params}
    (found : run.bridge.current.get? language = some server)
    (speaks : ∀ final client, final.Connects language client →
      errand.Says confined final (.sent language client (.request method params))) :
    OnWay confined task errand errand run (run.setBridge (run.bridge.setLink server
      ((run.bridge.link server).request method params).1)) := by
  have sound := onTurn.sound.bridge
  obtain ⟨extended, sameServer⟩ := (run.bridge.link server).request_extends method params
  have linked := (sound.link_setLink found found
    ((run.bridge.link server).request method params).1).trans (if_pos rfl)
  refine onTurn.keep (sound.keeps_extends found extended
    (by rintro effect ⟨_, _, rfl⟩; rfl) (by rw [sameServer]))
    (fun _ => sound.sameState found fun _ => by simp [sameServer]) ?_
  rintro final lasts effect ⟨client, up, rfl⟩
  rw [(sound.servers language server found).2.named]
  refine speaks final client (lasts language client ⟨server, found, ?_⟩)
  rw [linked, Link.client?, sameServer]
  exact up

theorem queueLaunch {language : String} {server : Nat}
    (found : run.bridge.current.get? language = some server)
    (first : run.startUps.get? language = none) :
    OnWay confined task errand errand run (run.queueLaunch language server) where
  onTurn := by
    refine ⟨onTurn.sound.queueLaunch found first, Nat.lt_succ_of_lt onTurn.below, onTurn.fits,
      onTurn.covers, fun brings referred => ?_⟩
    rcases queueLaunch_refers referred with old | rfl
    · exact onTurn.unreferred brings old
    · exact Nat.lt_irrefl _ onTurn.below
  lasts := fun _ _ => id
  effects := fun _ _ => .refl _

end

/-- A document less is in hand. -/
theorem drop {language : String} {rest : List String}
    (onTurn : OnTurn confined task (.sync host (language :: rest)) run)
    (told : ∀ document, run.bridge.store.get? host language = some document →
      run.bridge.Told host language document) : OnTurn confined task (.sync host rest) run :=
  { onTurn with fits := trivial, covers := onTurn.covers.drop told }

end OnTurn

theorem Move.speaks (move : Move task errand run later after) (bridge : Bridge) :
    later.Says confined bridge = errand.Says confined bridge := by
  cases move <;> rfl

theorem Move.onWay (move : Move task errand run later after)
    (onTurn : OnTurn confined task errand run) :
    OnWay confined task errand later run after := by
  have sound := onTurn.sound
  cases move with
  | log run severity text => exact onTurn.aside ⟨rfl, rfl, rfl, rfl, rfl, .emit _ trivial⟩
  | close run =>
    have closed := sound.regroup (run.groups.erase task) fun parent other found member isMember =>
      sound.unbound member (Or.inr ⟨parent, other, (Table.of_get?_erase found).2, isMember⟩)
    refine ⟨⟨closed, onTurn.below, onTurn.fits, onTurn.covers, fun brings => ?_⟩, fun _ _ => id,
      fun _ _ => .refl _⟩
    rintro (queued | ⟨parent, group, found, isMember⟩)
    · exact onTurn.unreferred brings (Or.inl queued)
    · exact onTurn.unreferred brings
        (Or.inr ⟨parent, group, (Table.of_get?_erase found).2, isMember⟩)
  | settings run settings =>
    obtain ⟨keeps, states⟩ := sound.bridge.updateSettings settings
    exact onTurn.keep keeps states fun _ _ _ => id
  | receive run server message => exact onTurn.aside (.setLink (.receive _ message))
  | serve run server serves reply =>
    exact onTurn.aside (.setLink (Link.resume_serving serves _ reply).1)
  | publish run => exact onTurn.aside (.announce _ _ _)
  | skip down =>
    exact ⟨onTurn.drop fun document _ => down.told _ document, fun _ _ => id, fun _ _ => .refl _⟩
  | @sync host language rest run bridge synced =>
    obtain ⟨after, isSynced, keeps, states, told⟩ := sound.bridge.syncDocument host language
    cases synced.symm.trans isSynced
    have onWay := onTurn.keep keeps states fun _ _ _ => id
    exact ⟨onWay.onTurn.drop fun document held => told document (keeps.store ▸ held), onWay.lasts,
      onWay.effects⟩
  | @request context recipient chosen run server known =>
    obtain ⟨addressed, isChosen⟩ := onTurn.fits
    have found : run.bridge.current.get? context.language = some server := by
      rcases known with found | chosen
      · exact found
      · obtain ⟨_, language, found, same⟩ := isChosen server chosen
        exact same context List.mem_cons_self ▸ found
    refine onTurn.request found fun final client connects => ⟨rfl, fun isConfined => ⟨rfl, ?_⟩⟩
    rintro language present method params ⟨⟩
    exact ⟨connects, context.host, addressed isConfined context List.mem_cons_self⟩
  | query run server params =>
    obtain ⟨free, language, found, _⟩ := onTurn.fits.2 server rfl
    exact onTurn.request found fun _ _ _ => ⟨rfl, fun isConfined => absurd isConfined (free rfl)⟩

/-! ### Ends and waits -/

/-- A task ends or waits, without a word to any child server. -/
structure Passes (confined : Prop) (task : Nat) (before after : Run) : Prop where
  sound : after.Sound confined
  aside : before.bridge.Aside after.bridge
  others : ∀ other, other ≠ task → after.tasks.get? other = before.tasks.get? other

theorem Passes.carries (passes : Passes confined task run after) (sound : run.Sound confined)
    (covers : run.Covers task host []) (errand : Errand) : Carries confined errand run after where
  sound := passes.sound
  settled := covers.settled (passes.aside.keeps sound.bridge) passes.others
  effects := passes.aside.effects.mono fun _ silent => errand.says_of_silent silent confined _
  lasts := (passes.aside.keeps sound.bridge).lasts passes.aside.sameState

theorem Ends.passes (ends : Ends task errand run after) (sound : run.Sound confined) :
    Passes confined task run after := by
  induction ends with
  | @drop context recipient chosen run after router left memory next ih =>
    have aside : run.bridge.Aside { run.bridge with router := router } :=
      ⟨rfl, rfl, rfl, rfl, rfl, .refl _⟩
    have passes := ih (sound.aside aside)
    exact ⟨passes.sound, aside.trans passes.aside, passes.others⟩
  | finish run none outcome =>
    exact ⟨sound.finish task outcome, .refl _, fun _ different => get?_finish different outcome⟩
  | report run parent index outcome =>
    have erased := sound.erase task run.finished
    exact ⟨erased.enqueue (by simp [Job.Fits]) (by simp [Job.task?]) rfl, .refl _,
      fun other different => get?_finish different outcome⟩

section

variable (sound : run.Sound confined) (below : task < run.nextTask)
include sound below

theorem Sound.await (activity : Activity) (fits : activity.Fits confined run.bridge)
    (noStart : ∀ language server stage, activity ≠ .launching language server stage)
    (free : (∃ host language rest, activity = .syncing host language rest) → ¬ run.Refers task)
    (language : String) : (run.await task language activity).Sound confined := by
  refine sound.blocked rfl rfl rfl rfl (fun wanted => ?_) rfl below fits noStart free
  simp only [Run.await, Table.get?_adjust]
  split
  · rename_i same
    rw [same, Option.map_map]
    rfl
  · rfl

theorem Sound.passes_hold (activity : Activity) (calm : activity.Calm)
    (fits : activity.Fits confined run.bridge) (key : Option String) :
    Passes confined task run (run.hold task key activity) :=
  ⟨sound.blocked rfl rfl rfl rfl (fun _ => rfl) rfl below fits calm.not_launching
    (fun syncing => absurd syncing calm.not_syncing), .refl _,
    fun _ different => get?_block different _⟩

theorem Sound.passes_await (activity : Activity) (calm : activity.Calm)
    (fits : activity.Fits confined run.bridge) (language : String) :
    Passes confined task run (run.await task language activity) :=
  ⟨sound.await below activity fits calm.not_launching
    (fun syncing => absurd syncing calm.not_syncing) language, .refl _,
    fun _ different => get?_block different _⟩

theorem Sound.passes_split {purpose : Purpose} {count : Nat} {job : Nat → Nat → Job}
    (fits : ∀ index, index < count → (job (run.nextTask + index) index).Fits confined run.bridge)
    (joins : ∀ index, index < count →
      (job (run.nextTask + index) index).Joins task (run.nextTask + index)) :
    Passes confined task run (run.split task purpose count job) := by
  have gathering : (run.block task .gathering).Sound confined :=
    sound.blocked rfl rfl rfl rfl (fun _ => rfl) rfl below trivial nofun nofun
  have numbered := gathering.later (Nat.le_add_right run.nextTask count)
  have members : ∀ index, index < count → ({ run.block task .gathering with
      nextTask := run.nextTask + count } : Run).Unbound (run.nextTask + index) := by
    intro index inRange
    refine ⟨Nat.add_lt_add_left inRange _, fun host language rest held => ?_⟩
    exact absurd (gathering.tasks _ _ held).1 (Nat.not_lt.mpr (Nat.le_add_right _ _))
  have grouped := numbered.regroup (run.groups.put task
    { purpose := purpose, members := (List.range count).map (run.nextTask + ·),
      outcomes := List.replicate count none }) ?_
  refine ⟨grouped.enqueue ?_ ?_ ?_, .refl _, fun _ different => get?_block different _⟩
  · intro queued member
    obtain ⟨index, inRange, rfl⟩ := List.mem_map.mp member
    exact fits index (List.mem_range.mp inRange)
  · intro queued member other isNamed
    obtain ⟨index, inRange, rfl⟩ := List.mem_map.mp member
    rw [(joins index (List.mem_range.mp inRange)).task, Option.some.injEq] at isNamed
    exact isNamed ▸ members index (List.mem_range.mp inRange)
  · rw [List.filterMap_map, List.filterMap_eq_nil_iff]
    exact fun index inRange => (joins index (List.mem_range.mp inRange)).unstarted
  · intro parent group found member isMember
    rcases Table.of_get?_put found with ⟨rfl, rfl⟩ | ⟨_, old⟩
    · obtain ⟨index, inRange, rfl⟩ := List.mem_map.mp isMember
      exact members index (List.mem_range.mp inRange)
    · exact numbered.unbound member (Or.inr ⟨parent, group, old, isMember⟩)

end

/-- What a task leaves behind when it waits with further languages in hand. -/
theorem Covers.await {language : String} {rest : List String}
    (covers : run.Covers task host (language :: rest)) (down : run.bridge.Down language) :
    (run.await task language (.syncing host language rest)).Settled := by
  intro wanted wantedLanguage document held
  rcases covers.drop (fun document _ => down.told host document) wanted wantedLanguage document held
    with told | ⟨other, different, owed⟩ | ⟨rfl, inRest⟩
  · exact Or.inl told
  · refine Or.inr ⟨other, ?_⟩
    rw [OwedBy, show (run.await task language (.syncing host language rest)).tasks.get? other =
      run.tasks.get? other from get?_block different _]
    exact owed
  · exact Or.inr ⟨task, language, rest, (Table.get?_put _ _ _ _).trans (if_pos rfl), inRest⟩

/-! ### Turns -/

section

variable (onTurn : OnTurn confined task errand run)
include onTurn

/-- Documents that cannot be brought are missed by nobody, since no child server is up then. -/
theorem OnTurn.relieved (relieved : run.Relieves errand) : run.Covers task errand.host [] := by
  cases errand with
  | sync host languages =>
    cases languages with
    | nil => exact onTurn.covers
    | cons language rest =>
      rcases relieved with ⟨startUp, fault, found, settled⟩ | ⟨fault, failed⟩
      · have unknown := onTurn.sound.faults language startUp fault found settled
        exact fun wanted wantedLanguage document _ =>
          Or.inl ((onTurn.sound.bridge.down_of_unknown_root unknown wantedLanguage).told _ _)
      · obtain ⟨after, isSynced, _⟩ := onTurn.sound.bridge.syncDocument host language
        cases failed.symm.trans isSynced
  | _ => exact onTurn.covers

theorem OnTurn.hold {activity : Activity} (holds : errand.Holds activity) (key : Option String) :
    Carries confined errand run (run.hold task key activity) := by
  have calm : activity.Calm ∧ activity.Fits confined run.bridge ∧ run.Relieves errand := by
    cases holds with
    | answer context recipient chosen =>
      exact ⟨trivial, fun isConfined => onTurn.fits.1 isConfined context List.mem_cons_self, trivial⟩
    | found parent index chosen => exact ⟨trivial, trivial, trivial⟩
    | served server serves => exact ⟨trivial, serves, trivial⟩
  have passes := onTurn.sound.passes_hold onTurn.below activity calm.1 calm.2.1 key
  exact passes.carries onTurn.sound (onTurn.relieved calm.2.2) errand

theorem OnTurn.await {language : String} {server : Nat} {activity : Activity}
    (awaits : errand.Awaits language server activity)
    (current : run.bridge.current.get? language = some server) (down : run.bridge.Down language) :
    Carries confined errand run (run.await task language activity) := by
  cases awaits with
  | documents host language rest server =>
    refine ⟨⟨onTurn.sound.await onTurn.below (.syncing host language rest) trivial nofun
      (fun _ => onTurn.unreferred trivial) language, ?_, .refl _⟩, fun _ _ => id⟩
    exact Covers.await onTurn.covers down
  | request context recipient chosen server =>
    have passes := onTurn.sound.passes_await onTurn.below (.requesting context server recipient) trivial
      ⟨fun isConfined => onTurn.fits.1 isConfined context List.mem_cons_self, current⟩
      context.language
    exact passes.carries onTurn.sound (onTurn.relieved trivial) _
  | start language server =>
    have passes := onTurn.sound.passes_await onTurn.below (.ensuring language) trivial trivial language
    exact passes.carries onTurn.sound (onTurn.relieved trivial) _

theorem OnTurn.split {purpose : Purpose} {count : Nat} {job : Nat → Nat → Job}
    (relieved : run.Relieves errand)
    (joins : ∀ index, index < count →
      (job (run.nextTask + index) index).Joins task (run.nextTask + index))
    (requests : ((List.range count).filterMap fun index =>
      (job (run.nextTask + index) index).context?) = errand.requests)
    (searched : ∀ index, index < count → ∀ server,
      (job (run.nextTask + index) index).searched? = some server →
        errand = .search ∧ server ∈ run.bridge.current.values) :
    Carries confined errand run (run.split task purpose count job) := by
  refine (onTurn.sound.passes_split onTurn.below (fun index inRange => ?_) joins).carries onTurn.sound
    (onTurn.relieved relieved) errand
  cases isJob : job (run.nextTask + index) index with
  | send member context parent place =>
    intro isConfined
    have inHand : context ∈ errand.requests := by
      rw [← requests]
      exact List.mem_filterMap.mpr ⟨index, List.mem_range.mpr inRange, by rw [isJob]; rfl⟩
    cases errand with
    | ask contexts recipient chosen => exact onTurn.fits.1 isConfined context inHand
    | _ => contradiction
  | search member server query parent place =>
    obtain ⟨rfl, known⟩ := searched index inRange server (by rw [isJob]; rfl)
    obtain ⟨entry, isEntry, rfl⟩ := List.mem_map.mp known
    exact ⟨onTurn.fits, entry.1, onTurn.sound.bridge.distinct.get?_of_mem isEntry⟩
  | _ =>
    have joined := joins index inRange
    rw [isJob] at joined
    exact joined.elim

end

theorem Turn.carries (turn : Turn task errand run after) (onTurn : OnTurn confined task errand run) :
    Carries confined errand run after := by
  induction turn with
  | move move next ih =>
    have onWay := move.onWay onTurn
    exact onWay.carries move.speaks (ih onWay.onTurn)
  | create unknown configured next ih =>
    obtain ⟨keeps, states⟩ := onTurn.sound.bridge.addServer unknown _
    have onWay := onTurn.keep (keeps Effect.Silent) states fun final _ _ silent =>
      Errand.says_of_silent silent confined final _
    exact onWay.carries (fun _ => rfl) (ih onWay.onTurn)
  | launch found down untried first next ih =>
    have onWay := onTurn.queueLaunch found first
    exact onWay.carries (fun _ => rfl) (ih onWay.onTurn)
  | ends relieved ends =>
    exact (ends.passes onTurn.sound).carries onTurn.sound (onTurn.relieved relieved) _
  | hold run key holds => exact onTurn.hold holds key
  | await awaits current down found unsettled => exact onTurn.await awaits current down
  | split relieved joins requests searched => exact onTurn.split relieved joins requests searched

end Run

end LanguageBridge
