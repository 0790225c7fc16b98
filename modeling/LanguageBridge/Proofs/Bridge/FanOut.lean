import LanguageBridge.Proofs.Bridge.Gathering
import LanguageBridge.Proofs.Bridge.WholeDocuments
import LanguageBridge.Proofs.Mapping.Merging
import Mathlib.Data.List.Nodup

namespace LanguageBridge

/-! A request to all languages of a host comes to the same whatever the order in which the child servers
start and answer. -/

/-! ### The beginning -/

namespace Inquiry

variable {inquiry : Inquiry} {phase : Nat → Phase} {before run : Run} {index : Nat} {context : Context}
  {router : Router}

theorem filter_range {count : Nat} (known : index < count) :
    (List.range count).filter (fun other => other = index) = [index] := by
  have once := List.count_eq_one_of_mem List.nodup_range (List.mem_range.mpr known)
  have same : (List.range count).filter (fun other => other == index) = _ := List.filter_beq index
  rw [once] at same
  exact same

section Beginning

variable (parent : inquiry.parent = before.nextTask)
  (issues : before.bridge.router.pending.Issues inquiry.contexts router.pending)
include parent issues

/-- The numbers of the inquiry are given out only now. -/
theorem reserve_future : (∀ task, inquiry.reserve.task task → before.future.task task) ∧
    ∀ id, inquiry.reserve.request id → before.future.request id := by
  constructor
  · intro task isReserved
    simp only [Run.future, ← parent]
    exact isReserved.1
  · intro id ⟨context, member, isId⟩
    rw [← isId]
    exact (issues.gains.numbers context member).1

variable (unclaimed : before.Unclaimed)
include unclaimed

theorem off_before : before.Off inquiry.reserve :=
  unclaimed.off_of_later (reserve_future parent issues).1 (reserve_future parent issues).2

theorem ready_off {job : Job} (member : job ∈ before.ready) : job.Off inquiry.reserve :=
  (unclaimed.ready job member).mono (reserve_future parent issues).1 (reserve_future parent issues).2

theorem queue_split (place : Nat) :
    inquiry.queue ((before.entered router).fanOut before.nextTask inquiry.method inquiry.contexts) place =
      ((List.range inquiry.contexts.length).filter fun other => other + 1 = place).map fun other =>
        .send (inquiry.member other) (inquiry.contexts.getD other default) inquiry.parent other := by
  have earlier : before.ready.filter (fun job => inquiry.place? job = some place) = [] := by
    rw [List.filter_eq_nil_iff]
    intro job member
    simp [place?_of_off (ready_off parent issues unclaimed member)]
  have ready : ((before.entered router).fanOut before.nextTask inquiry.method inquiry.contexts).ready =
      before.ready ++ (List.range inquiry.contexts.length).map fun other =>
        .send (inquiry.member other) (inquiry.contexts.getD other default) inquiry.parent other := by
    simp only [member, parent]
    rfl
  simp only [queue, ready, List.filter_append, earlier, List.nil_append, List.filter_map]
  congr 2
  funext other
  simp [place?]

theorem underway_split (store : inquiry.store = before.bridge.store)
    (someone : inquiry.contexts ≠ []) :
    inquiry.Underway (fun _ => .queued)
      ((before.entered router).fanOut before.nextTask inquiry.method inquiry.contexts) := by
  have off := off_before parent issues unclaimed
  have unreported : ¬ inquiry.AllReported fun _ => .queued := by
    intro all
    have := all 0 (List.length_pos_iff.mpr someone)
    contradiction
  exact {
    off := by
      constructor
      · intro task activity other found
        have different : task ≠ before.nextTask := fun same => other (same ▸ parent ▸ reserve_parent)
        refine off.tasks task activity other ?_
        simpa [Run.fanOut, Run.split, Run.enqueue, Run.block, Run.entered, Table.get?_put, different]
          using found
      · intro task group other found
        have different : task ≠ before.nextTask := fun same => other (same ▸ parent ▸ reserve_parent)
        refine off.groups task group other ?_
        simpa [Run.fanOut, Run.split, Run.enqueue, Run.block, Run.entered, Table.get?_put, different]
          using found
    tasks := by
      simp only [Run.fanOut, Run.split, Run.enqueue, Run.block, Run.entered, parent]
      omega
    requests := fun context member => (issues.gains.numbers context member).2
    jobs := by
      intro job member
      rcases List.mem_append.mp member with earlier | new
      · exact Or.inl (ready_off parent issues unclaimed earlier)
      · obtain ⟨index, known, isJob⟩ := List.mem_map.mp new
        subst isJob
        exact Or.inr ⟨index + 1, List.mem_range.mp known, by simp [place?, parent]⟩
    store := store.symm
    gathering := by
      simp [Run.fanOut, Run.split, Run.enqueue, Run.block, Run.entered, Table.get?_put, parent]
    unfinished := by
      rw [parent]
      exact unclaimed.finished _ (Nat.le_refl _)
    group := by
      have slots : inquiry.slots (fun _ => .queued) = List.replicate inquiry.contexts.length none := by
        refine List.ext_getElem? fun place => ?_
        simp only [slots, List.getElem?_mapIdx, List.getElem?_replicate]
        cases here : inquiry.contexts[place]? with
        | none => simp [List.getElem?_eq_none_iff.mp here]
        | some context => simp [within here]
      simp [Run.fanOut, Run.split, Run.enqueue, Run.block, Run.entered, Table.get?_put, parent, group,
        slots]
    called := by
      rw [queue_split parent issues unclaimed, call, if_neg unreported]
      simp
    members := by
      intro index context here
      have later : before.nextTask ≤ inquiry.member index := by
        simp only [member, parent]
        omega
      refine ⟨?_, ?_, issues.found context (List.mem_of_getElem? here)⟩
      · rw [queue_split parent issues unclaimed]
        simp only [Nat.add_right_cancel_iff, filter_range (within here), List.map_cons, List.map_nil,
          List.getD_eq_getElem?_getD, here, Option.getD_some]
      · have different : inquiry.member index ≠ before.nextTask := parent ▸ parent_ne_member.symm
        simp [Run.fanOut, Run.split, Run.enqueue, Run.block, Run.entered, Table.get?_put, different,
          unclaimed.tasks _ later] }

theorem ended_at_once (nobody : inquiry.contexts = []) :
    inquiry.Ended ((before.entered router).finish before.nextTask (.ok .notApplicable)) := by
  have off := off_before parent issues unclaimed
  refine ⟨⟨⟨fun task activity other found => ?_, off.groups⟩, ?_, ?_⟩, ?_, ?_, ?_⟩
  · have different : task ≠ before.nextTask := fun same => other (same ▸ parent ▸ reserve_parent)
    refine off.tasks task activity other ?_
    simpa [Run.finish, Run.entered, Table.get?_erase, different] using found
  · simp [Run.finish, Run.entered, parent, nobody]
  · simp [nobody]
  · exact fun job member => ready_off parent issues unclaimed member
  · intro task isReserved
    have isParent : task = before.nextTask := by
      have := isReserved.1
      have := isReserved.2
      simp only [nobody, parent, List.length_nil] at *
      omega
    simp [Run.finish, Run.entered, Table.get?_erase, isParent]
  · simp [Run.finish, Table.get?_put, parent, nobody, Run.fanOutOutcome, Run.answers, Run.failures]

theorem stands_start {uri : String} {params : Params} (store : inquiry.store = before.bridge.store)
    (routed : before.bridge.router.fanOut before.bridge.store uri inquiry.method params =
      (router, .ok inquiry.contexts)) :
    inquiry.Stands (before.act (.command (.dispatchAll uri inquiry.method params))) := by
  simp only [Run.act, Run.enter, Run.begin, Run.dispatchAll, routed]
  split
  · contradiction
  · rename_i nobody
    exact Or.inr (ended_at_once parent issues unclaimed (Except.ok.inj nobody))
  · rename_i contexts someone same
    cases same
    exact Or.inl ⟨_, fun _ => by simp [Phase.Lasting],
      underway_split parent issues unclaimed store fun nobody => someone (by rw [nobody])⟩

end Beginning

/-! ### What is known at any time -/

theorem Stands.outcome (stands : inquiry.Stands run) :
    (∀ outcome, run.finished.get? inquiry.parent = some outcome →
      outcome = Run.fanOutOutcome inquiry.method (inquiry.contexts.map inquiry.told)) ∧
    (run.idle = true →
      (∀ index < inquiry.contexts.length, run.tasks.get? (inquiry.member index) = none) →
        run.finished.get? inquiry.parent =
          some (Run.fanOutOutcome inquiry.method (inquiry.contexts.map inquiry.told))) := by
  rcases stands with ⟨phase, lasting, underway⟩ | ended
  · refine ⟨fun outcome finished => ?_, fun idle unblocked => ?_⟩
    · rw [underway.unfinished] at finished
      contradiction
    -- With an empty queue everyone has reported, and then the whole would be in the queue.
    · exfalso
      have queues (place : Nat) : inquiry.queue run place = [] := by
        simp [queue, List.isEmpty_iff.mp idle]
      have all : inquiry.AllReported phase := by
        intro index known
        have here := List.getElem?_eq_getElem known
        have stage := underway.members index _ here
        cases isPhase : phase index with
        | reported => rfl
        | atWork => exact absurd isPhase (lasting index).1
        | leaving => exact absurd isPhase (lasting index).2
        | waiting =>
          rw [isPhase] at stage
          obtain ⟨activity, found, _⟩ := stage.2.1
          cases (unblocked index known).symm.trans found
        | queued =>
          rw [isPhase] at stage
          cases (queues _).symm.trans stage.1
        | reporting =>
          rw [isPhase] at stage
          cases (queues _).symm.trans stage.1
      have called := underway.called
      rw [queues, call, if_pos all] at called
      contradiction
  · refine ⟨fun outcome finished => ?_, fun _ _ => ended.finished⟩
    rw [ended.finished] at finished
    exact (Option.some.inj finished).symm

end Inquiry

/-! ### Asking all languages -/

namespace Router

variable {store : Store} {host : String} {method : Method} {about : DocumentParams}

theorem fanOutOver_asks (named : host ≠ "") (asks : Asks method about) (languages : List String)
    (known : ∀ language ∈ languages, language ≠ "" ∧
      ∃ document, store.get? host language = some document ∧ document.chunks ≠ [])
    (router : Router) :
    ∃ contexts later,
      fanOutOver store host method (.document about) languages router = (later, .ok contexts) ∧
      router.pending.Issues contexts later.pending ∧ contexts.map Context.language = languages ∧
      ∀ context ∈ contexts, context.method = method ∧ context.isRegular = true := by
  obtain ⟨contexts, later, isLater, issues, inOrder, posed⟩ :=
    fanOutOver_named named asks languages known router
  refine ⟨contexts, later, isLater, issues, inOrder, fun context member => ?_⟩
  exact ⟨(posed context member).isMethod, (posed context member).isRegular asks⟩

end Router

/-! ### What languages come to together -/

namespace Store

variable {store : Store} {method : Method} {said : String → Said} {contexts : List Context}
  {context : Context}

/-- The results of the languages that give one, in host terms. -/
def translated (store : Store) (said : String → Said) (contexts : List Context) : List Answer :=
  contexts.filterMap fun context =>
    match said context.language with
    | .result answer => some (store.mapBack context answer).1
    | _ => none

/-- What a request to all languages is to come to. -/
inductive Agreed (store : Store) (method : Method) (said : String → Said) (contexts : List Context) :
    Outcome → Prop where
  | nobody (silent : ∀ context ∈ contexts, said context.language = .nobody) :
      Agreed store method said contexts (.ok .notApplicable)
  /-- The first language that fails, where none gives a result. -/
  | failed {earlier later : List Context} {context : Context} {fault : Fault}
      (isSplit : contexts = earlier ++ context :: later)
      (silent : ∀ other ∈ earlier, said other.language = .nobody)
      (fails : said context.language = .failure fault)
      (unanswered : ∀ other ∈ later, ∀ answer, said other.language ≠ .result answer) :
      Agreed store method said contexts (.error fault)
  | merged {context : Context} {answer : Answer} {items : List Item} (member : context ∈ contexts)
      (given : said context.language = .result answer)
      (merges : Run.merge method (store.translated said contexts) = .ok items) :
      Agreed store method said contexts (.ok (.answer (.many items)))

/-- The contexts of a request that is asked properly. -/
def Suited (method : Method) (contexts : List Context) : Prop :=
  ∀ context ∈ contexts, context.method = method ∧ context.isRegular = true

variable (asks : method ∈ Method.fanOut) (suited : Suited method contexts)
  (typed : ∀ context ∈ contexts, ∀ answer, said context.language = .result answer →
    answer.Typed method)
include asks suited typed

theorem outcomes_eq :
    (contexts.map fun context => (said context.language).outcome store context) =
      contexts.map fun context =>
        match said context.language with
        | .nobody => .ok .notApplicable
        | .failure fault => .error fault
        | .result answer => .ok (.answer (store.mapBack context answer).1) := by
  refine List.map_congr_left fun context member => ?_
  obtain ⟨isMethod, regular⟩ := suited context member
  cases given : said context.language with
  | nobody => rfl
  | failure fault => rfl
  | result answer =>
    have answers := typed context member answer given
    simp only [Said.outcome, bringBack_typed (isMethod ▸ asks) regular (isMethod ▸ answers)]
    rfl

theorem answers_outcomes :
    Run.answers (contexts.map fun context => (said context.language).outcome store context) =
      store.translated said contexts := by
  rw [outcomes_eq asks suited typed, Run.answers, List.filterMap_map, translated]
  congr 1
  funext context
  simp only [Function.comp_apply]
  cases said context.language <;> rfl

theorem failures_outcomes :
    Run.failures (contexts.map fun context => (said context.language).outcome store context) =
      contexts.filterMap fun context =>
        match said context.language with
        | .failure fault => some fault
        | _ => none := by
  rw [outcomes_eq asks suited typed, Run.failures, List.filterMap_map]
  congr 1
  funext context
  simp only [Function.comp_apply]
  cases said context.language <;> rfl

theorem merge_translated : ∃ items, Run.merge method (store.translated said contexts) = .ok items := by
  have answersTyped : ∀ answer ∈ store.translated said contexts, answer.Typed method := by
    intro mapped member
    obtain ⟨context, inContexts, isMapped⟩ := List.mem_filterMap.mp member
    obtain ⟨isMethod, _⟩ := suited context inContexts
    cases given : said context.language with
    | result answer =>
      simp only [given, Option.some.injEq] at isMapped
      rw [← isMapped, ← isMethod]
      exact mapBack_typed (isMethod ▸ asks) (isMethod ▸ typed context inContexts answer given)
    | _ => simp [given] at isMapped
  simp only [Method.fanOut, List.mem_cons, List.not_mem_nil, or_false] at asks
  rcases asks with isSymbols | isHints
  · subst isSymbols
    exact mergeSymbols_typed answersTyped
  · subst isHints
    exact mergeHints_typed answersTyped

theorem agreed_fanOutOutcome : store.Agreed method said contexts (Run.fanOutOutcome method
    (contexts.map fun context => (said context.language).outcome store context)) := by
  obtain ⟨items, merges⟩ := merge_translated asks suited typed
  simp only [Run.fanOutOutcome, answers_outcomes asks suited typed, failures_outcomes asks suited typed]
  cases isGiven : store.translated said contexts with
  | cons first others =>
    obtain ⟨_, context, _, isSplit, _, isFirst, _⟩ := List.filterMap_eq_cons_iff.mp isGiven
    rw [isGiven] at merges
    simp only [merges]
    cases given : said context.language with
    | result answer =>
      refine .merged (isSplit ▸ List.mem_append_right _ List.mem_cons_self) given ?_
      rw [isGiven, merges]
    | _ => simp [given] at isFirst
  | nil =>
    have unanswered : ∀ context ∈ contexts, ∀ answer, said context.language ≠ .result answer := by
      intro context member answer given
      have := List.filterMap_eq_nil_iff.mp isGiven context member
      simp [given] at this
    generalize isFailures : List.filterMap _ contexts = failures
    cases failures with
    | nil =>
      refine .nobody fun context member => ?_
      have unfailed := List.filterMap_eq_nil_iff.mp isFailures context member
      cases given : said context.language with
      | nobody => rfl
      | failure fault => simp [given] at unfailed
      | result answer => exact absurd given (unanswered context member answer)
    | cons fault others =>
      obtain ⟨earlier, context, later, isSplit, unfailed, fails, _⟩ :=
        List.filterMap_eq_cons_iff.mp isFailures
      subst isSplit
      refine .failed rfl (fun other member => ?_) ?_ fun other member => ?_
      · have here := unfailed other member
        cases given : said other.language with
        | nobody => rfl
        | failure fault => simp [given] at here
        | result answer =>
          exact absurd given (unanswered other (List.mem_append_left _ member) answer)
      · cases given : said context.language with
        | failure _ =>
          simp only [given, Option.some.injEq] at fails
          rw [fails]
        | _ => simp [given] at fails
      · exact unanswered other (List.mem_append_right _ (List.mem_cons_of_mem _ member))

end Store

/-! ### Any order -/

namespace Run

variable {config : Config} {padding : Padding} {names : LanguageNames} {rules : Option (List Rule)}
  {root : Option String} {publishes : Bool} {editor : Editor} {before : Run}
  {earlier : List BridgeEvent}

/-- A request to all languages of a host comes to one outcome, which depends on what is said in each
language, and not on when. Until it is known, the request is in the queue or some member waits. -/
theorem dispatchAll_agrees_in_any_order
    (reached : Reached act Anything (fresh config padding names rules root publishes editor)
      earlier before)
    {uri : String} (named : uri ≠ "")
    (filled : ∀ language ∈ before.bridge.store.languages uri, language ≠ "")
    {method : Method} {about : DocumentParams} (asks : Router.Asks method about)
    {said : String → Said}
    (typed : ∀ language ∈ before.bridge.store.languages uri, ∀ answer,
      said language = .result answer → answer.Typed method) :
    ∃ contexts outcome,
      (before.bridge.router.fanOut before.bridge.store uri method (.document about)).2 =
        .ok contexts ∧
      contexts.map Context.language = before.bridge.store.languages uri ∧
      before.bridge.store.Agreed method said contexts outcome ∧
      ∀ later after,
        Reached act (Hearing before.nextTask (before.bridge.store.languages uri) said)
          (before.act (.command (.dispatchAll uri method (.document about)))) later after →
        (∀ found, after.finished.get? before.nextTask = some found → found = outcome) ∧
        (after.idle = true →
          (∀ index < (before.bridge.store.languages uri).length,
            after.tasks.get? (before.nextTask + 1 + index) = none) →
          after.finished.get? before.nextTask = some outcome) := by
  obtain ⟨history, stored⟩ := reached_store reached
  obtain ⟨contexts, router, routed, issues, languages, suited⟩ :=
    Router.fanOutOver_asks named asks (before.bridge.store.languages uri)
      (fun language known => ⟨filled language known, Store.exists_document stored rfl known⟩)
      before.bridge.router
  have distinct : (contexts.map Context.id).Nodup := by
    rw [issues.numbers.1]
    exact List.nodup_range'
  let inquiry : Inquiry :=
    ⟨before.nextTask, method, contexts, before.bridge.store, said, distinct⟩
  have start : inquiry.Stands (before.act (.command (.dispatchAll uri method (.document about)))) :=
    Inquiry.stands_start rfl issues (unclaimed_of_reached reached) rfl routed
  have fansOut : method ∈ Method.fanOut := by
    rcases asks with isSymbols | ⟨isHints, _⟩
    · simp [Method.fanOut, isSymbols]
    · simp [Method.fanOut, isHints]
  have agreed : before.bridge.store.Agreed method said contexts
      (fanOutOutcome method (contexts.map inquiry.told)) :=
    Store.agreed_fanOutOutcome fansOut suited fun context member answer given =>
      typed context.language (languages ▸ List.mem_map_of_mem member) answer given
  refine ⟨contexts, _, congrArg Prod.snd routed, languages, agreed, fun later after goesOn => ?_⟩
  have stands : inquiry.Stands after :=
    goesOn.invariant inquiry.Stands start fun run event hearing stands =>
      stands.act (languages.symm ▸ hearing)
  have outcome := stands.outcome
  rw [← languages, List.length_map]
  exact outcome

/-! ### Two orders

A host has two languages, and both child servers take their time. -/

/-- What the tasks hear in the course of some events, the latest first. -/
def heardAlong (start : Run) : List BridgeEvent → List (Nat × Said)
  | [] => []
  | .step :: history =>
    match (start.replay history).ready with
    | [] => start.heardAlong history
    | job :: rest =>
      (({ start.replay history with ready := rest } : Run).heard? job).toList ++
        start.heardAlong history
  | _ :: history => start.heardAlong history

/-- Steps and replies, which leave the hosts alone. -/
def Calm : BridgeEvent → Prop
  | .step | .reply _ _ => True
  | _ => False

theorem reached_hearing {parent : Nat} {languages : List String} {said : String → Said} (start : Run)
    (events : List BridgeEvent)
    (calm : ∀ event ∈ events, Calm event)
    (hears : ∀ index language heard, (parent + 1 + index, heard) ∈ start.heardAlong events →
      languages[index]? = some language → heard = said language) :
    Reached act (Hearing parent languages said) start events (start.replay events) := by
  induction events with
  | nil => exact .start
  | cons event history ih =>
    have calmBefore := fun other member => calm other (List.mem_cons_of_mem event member)
    cases event with
    | step =>
      have earlier : start.heardAlong history ⊆ start.heardAlong (.step :: history) := by
        intro entry member
        simp only [heardAlong]
        split
        · exact member
        · exact List.mem_append_right _ member
      have before := ih calmBefore fun index language heard member =>
        hears index language heard (earlier member)
      refine .step before .step ⟨(apart_nothing _ .step).store, ?_⟩
      intro job rest index language heard isReady isHeard
      refine hears index language heard ?_
      simp [heardAlong, isReady, isHeard]
    | reply key reply =>
      exact .step (ih calmBefore hears) (.reply key reply)
        ⟨(apart_nothing _ (.reply key reply)).store, trivial⟩
    | _ => exact (calm _ List.mem_cons_self).elim

def heldAnswers : Run :=
  ((noHost.submit (.openHost "h" "```json\n1\n```\n```python\ny\n```" (some "markdown"))).2.prepare
    (.child "json") (.request .documentSymbol) [.hold (some "slow")]).prepare
      (.child "python") (.request .documentSymbol) [.hold (some "slower")]

/-- A result with one symbol, on the first line of its document. -/
def oneSymbol (name : String) : Answer :=
  let range : Range := ⟨⟨0, 0⟩, ⟨0, 1⟩⟩
  .many [.documentSymbol { name := name, kind := .int 13, range := range, selectionRange := range }]

def fromJson : BridgeEvent := .reply "slow" (.result (oneSymbol "one"))

def fromPython : BridgeEvent := .reply "slower" (.result (oneSymbol "y"))

/-- Both are asked; one of them answers and reports, and then the other one. -/
def answering (first second : BridgeEvent) : Run :=
  (heldAnswers.act (.command (symbols "h"))).replay
    [.step, .step, .step, second, .step, .step, first, .step, .step]

/-- Nothing goes on by itself, and neither member waits. -/
def atRest (run : Run) : Bool :=
  run.idle && (run.tasks.get? 4).isNone && (run.tasks.get? 5).isNone

def saidByBoth (language : String) : Said :=
  .result (oneSymbol (if language = "json" then "one" else "y"))

theorem dispatchAll_agrees_in_either_order :
    ∃ contexts outcome, contexts.map Context.language = ["json", "python"] ∧
      heldAnswers.bridge.store.Agreed .documentSymbol saidByBoth contexts outcome ∧
      (answering fromJson fromPython).finished.get? 3 = some outcome ∧
      (answering fromPython fromJson).finished.get? 3 = some outcome := by
  obtain ⟨_, opened⟩ : ∃ events, Reached act Anything noHost events (noHost.submit (.openHost "h"
      "```json\n1\n```\n```python\ny\n```" (some "markdown"))).2 :=
    reached_submit (fun _ => trivial) .start _ trivial
  have reached : Reached act Anything noHost _ heldAnswers :=
    .step (.step opened (.prepare _ _ _) trivial) (.prepare _ _ _) trivial
  have seen : (heldAnswers.nextTask, heldAnswers.bridge.store.languages "h") =
      (3, ["json", "python"]) := by cbv
  obtain ⟨number, languages⟩ := Prod.mk.inj seen
  have typed : ∀ language ∈ heldAnswers.bridge.store.languages "h", ∀ answer,
      saidByBoth language = .result answer → answer.Typed .documentSymbol := by
    intro language _ answer given
    cases given
    intro item member
    rw [List.mem_singleton.mp member]
    rfl
  obtain ⟨contexts, outcome, _, asked, agreed, anyOrder⟩ :=
    dispatchAll_agrees_in_any_order reached (by decide) (by rw [languages]; decide) (Or.inl rfl) typed
  rw [languages, number] at anyOrder
  have finishes (first second : BridgeEvent)
      (calm : Calm first ∧ Calm second)
      (heard : (heldAnswers.act (.command (symbols "h"))).heardAlong
        [.step, .step, .step, second, .step, .step, first, .step, .step] ⊆
          [(4, saidByBoth "json"), (5, saidByBoth "python")])
      (rests : (answering first second).atRest = true) :
      (answering first second).finished.get? 3 = some outcome := by
    simp only [atRest, Bool.and_eq_true, Option.isNone_iff_eq_none] at rests
    obtain ⟨⟨idle, json⟩, python⟩ := rests
    refine (anyOrder _ _ (reached_hearing _ _ ?_ ?_)).2 idle ?_
    · simpa [Calm] using calm.symm
    · intro index language said member isLanguage
      have known := heard member
      simp only [List.mem_cons, Prod.mk.injEq, List.not_mem_nil, or_false] at known
      rcases known with ⟨place, isSaid⟩ | ⟨place, isSaid⟩
      · obtain rfl : index = 0 := by omega
        cases isLanguage
        exact isSaid
      · obtain rfl : index = 1 := by omega
        cases isLanguage
        exact isSaid
    · intro index known
      have place : index = 0 ∨ index = 1 := by
        simp only [List.length_cons, List.length_nil] at known
        omega
      rcases place with rfl | rfl
      · exact json
      · exact python
  have heardJsonFirst : (heldAnswers.act (.command (symbols "h"))).heardAlong
      [.step, .step, .step, fromPython, .step, .step, fromJson, .step, .step] =
        [(5, saidByBoth "python"), (4, saidByBoth "json")] := by cbv
  have heardPythonFirst : (heldAnswers.act (.command (symbols "h"))).heardAlong
      [.step, .step, .step, fromJson, .step, .step, fromPython, .step, .step] =
        [(4, saidByBoth "json"), (5, saidByBoth "python")] := by cbv
  refine ⟨contexts, outcome, asked.trans languages, agreed, finishes _ _ ⟨trivial, trivial⟩ ?_ (by cbv),
    finishes _ _ ⟨trivial, trivial⟩ ?_ (by cbv)⟩
  · rw [heardJsonFirst]
    exact (List.Perm.swap _ _ _).subset
  · rw [heardPythonFirst]
    exact List.Subset.refl _

end Run

end LanguageBridge
