namespace LanguageBridge

/-! Runs of a system to which things are done from outside. -/

/-- The states that a history leads to, the latest event first, where each event was allowed when it
came. -/
inductive Reached {σ ε : Type} (next : σ → ε → σ) (allowed : σ → ε → Prop) (start : σ) :
    List ε → σ → Prop where
  | start : Reached next allowed start [] start
  | step {history : List ε} {state : σ} (before : Reached next allowed start history state)
      (event : ε) (permitted : allowed state event) :
      Reached next allowed start (event :: history) (next state event)

def Anything {σ ε : Type} (_ : σ) (_ : ε) : Prop := True

theorem Reached.invariant {σ ε : Type} {next : σ → ε → σ} {allowed : σ → ε → Prop} {start state : σ}
    {history : List ε} (reached : Reached next allowed start history state) (holds : σ → Prop)
    (initial : holds start)
    (kept : ∀ state event, allowed state event → holds state → holds (next state event)) :
    holds state := by
  induction reached with
  | start => exact initial
  | step before event permitted ih => exact kept _ event permitted ih

theorem Reached.trans {σ ε : Type} {next : σ → ε → σ} {allowed : σ → ε → Prop}
    {start middle state : σ} {earlier later : List ε}
    (first : Reached next allowed start earlier middle)
    (second : Reached next allowed middle later state) :
    Reached next allowed start (later ++ earlier) state := by
  induction second with
  | start => exact first
  | step before event permitted ih => exact .step ih event permitted

theorem Reached.mono {σ ε : Type} {next : σ → ε → σ} {allowed wider : σ → ε → Prop}
    {start state : σ} {history : List ε} (reached : Reached next allowed start history state)
    (weaker : ∀ state event, allowed state event → wider state event) :
    Reached next wider start history state := by
  induction reached with
  | start => exact .start
  | step before event permitted ih => exact .step ih event (weaker _ event permitted)

end LanguageBridge
