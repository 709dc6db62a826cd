/-
# The event relay

Screens subscribe to kinds of events and are notified when one is published. A screen that
comes back unsubscribes first, to be notified once. But unsubscribing takes the oldest
subscription of a screen away and no other, so a screen that subscribed to several kinds
keeps all but one of them and is notified again for each.
-/

import Mathlib.Data.List.Induction
import Mathlib.Tactic.Common

namespace SafeWallet

/-- `EventRelay`: what was subscribed and by whom, unless the subscriber is gone. -/
structure EventRelay (Kind Subject : Type) where
  subscribers : List (Kind × Option Subject)

namespace EventRelay

/-- What happens on the queue of the relay. A subscriber that is released leaves `nil` behind. -/
inductive Action (Kind Subject : Type)
  | subscribe (subject : Subject) (event : Kind)
  | unsubscribe (subject : Subject)
  | publish (event : Kind)
  | release (subject : Subject)

variable {Kind Subject : Type} [DecidableEq Subject]

/-- `removeWeakNils()`. -/
def removeWeakNils (relay : EventRelay Kind Subject) : EventRelay Kind Subject :=
  ⟨relay.subscribers.filter fun entry => entry.2.isSome⟩

/-- `subscribe(_:for:)`. -/
def subscribe (relay : EventRelay Kind Subject) (subject : Subject) (event : Kind) :
    EventRelay Kind Subject :=
  removeWeakNils ⟨relay.subscribers ++ [(event, some subject)]⟩

/-- `unsubscribe(_:)`: the first entry of the subscriber is removed. -/
def unsubscribe (relay : EventRelay Kind Subject) (subject : Subject) : EventRelay Kind Subject :=
  removeWeakNils ⟨relay.subscribers.eraseP fun entry => entry.2 = some subject⟩

/-- One action on the queue. -/
def perform (relay : EventRelay Kind Subject) : Action Kind Subject → EventRelay Kind Subject
  | .subscribe subject event => relay.subscribe subject event
  | .unsubscribe subject => relay.unsubscribe subject
  | .publish _ => relay.removeWeakNils
  | .release subject => ⟨relay.subscribers.map fun entry =>
      if entry.2 = some subject then (entry.1, none) else entry⟩

/-- The relay after the actions. -/
def run (actions : List (Action Kind Subject)) : EventRelay Kind Subject :=
  actions.foldl perform ⟨[]⟩

/-- What a subscriber has subscribed to since it last unsubscribed, after one more action. -/
def Action.renewed (subject : Subject) (kinds : List Kind) : Action Kind Subject → List Kind
  | .subscribe other event => if other = subject then kinds ++ [event] else kinds
  | .unsubscribe other => if other = subject then [] else kinds
  | _ => kinds

/-- What a subscriber subscribed to after its last unsubscribe. -/
def since (subject : Subject) (actions : List (Action Kind Subject)) : List Kind :=
  actions.foldl (Action.renewed subject) []

/-- Whenever the subscriber unsubscribes it has subscribed once at most since it did so before. -/
def Sparse (subject : Subject) (actions : List (Action Kind Subject)) : Prop :=
  ∀ before, before ++ [.unsubscribe subject] <+: actions → (since subject before).length ≤ 1

/-! ## What a subscriber holds -/

/-- The kinds that a subscriber is subscribed to. -/
def held (relay : EventRelay Kind Subject) (subject : Subject) : List Kind :=
  (relay.subscribers.filter fun entry => entry.2 = some subject).map Prod.fst

variable {event : Kind} {subject other : Subject} {relay : EventRelay Kind Subject}
  {actions before : List (Action Kind Subject)}

@[simp]
theorem held_removeWeakNils : relay.removeWeakNils.held subject = relay.held subject := by
  rw [held, removeWeakNils, List.filter_filter, held]
  congr 2
  funext entry
  cases entry.2 <;> simp

theorem held_subscribe : (relay.subscribe other event).held subject =
    if other = subject then relay.held subject ++ [event] else relay.held subject := by
  rw [subscribe, held_removeWeakNils, held, List.filter_append, List.map_append]
  split
  · rename_i heq
    simp [heq, held]
  · rename_i hne
    simp [hne, held]

/-- Unsubscribing takes the oldest subscription away. -/
theorem held_unsubscribe : (relay.unsubscribe other).held subject =
    if other = subject then (relay.held subject).tail else relay.held subject := by
  rw [unsubscribe, held_removeWeakNils, held, held]
  generalize relay.subscribers = entries
  induction entries with
  | nil => simp
  | cons entry rest ih =>
      by_cases hother : entry.2 = some other
      · by_cases heq : other = subject
        · subst heq
          simp [hother]
        · simp [hother, heq]
      · by_cases hsubject : entry.2 = some subject
        · have heq : other ≠ subject := fun heq => hother (heq ▸ hsubject)
          simp only [heq, if_false] at ih
          simp [hsubject, heq.symm, heq, ih]
        · simpa [List.eraseP_cons, hother, hsubject] using ih

/-- Another subscriber is gone. -/
theorem held_release (hne : other ≠ subject) :
    (relay.perform (.release other)).held subject = relay.held subject := by
  rw [perform, held, held]
  generalize relay.subscribers = entries
  induction entries with
  | nil => rfl
  | cons entry rest ih =>
      obtain ⟨kind, reference⟩ := entry
      by_cases hother : reference = some other
      · subst hother
        simpa [hne] using ih
      · by_cases hsubject : reference = some subject
        · simp [hsubject, hne.symm, ih]
        · simp [hother, hsubject, ih]

/-- What is left of the subscriptions of a subscriber, oldest first, after an action. -/
def Action.queued (subject : Subject) (kinds : List Kind) : Action Kind Subject → List Kind
  | .subscribe other event => if other = subject then kinds ++ [event] else kinds
  | .unsubscribe other => if other = subject then kinds.tail else kinds
  | _ => kinds

theorem held_perform {action : Action Kind Subject} (h : action ≠ .release subject) :
    (relay.perform action).held subject = action.queued subject (relay.held subject) := by
  cases action with
  | subscribe other event => exact held_subscribe
  | unsubscribe other => exact held_unsubscribe
  | publish event => exact held_removeWeakNils
  | release other => exact held_release fun heq => h (heq ▸ rfl)

/-! ## Sequences of actions -/

/-- The subscriber is not released by the actions. -/
def Lives (subject : Subject) (actions : List (Action Kind Subject)) : Prop :=
  .release subject ∉ actions

theorem run_concat (before : List (Action Kind Subject)) (action : Action Kind Subject) :
    run (before ++ [action]) = (run before).perform action := by
  rw [run, List.foldl_append, run, List.foldl_cons, List.foldl_nil]

theorem since_concat (before : List (Action Kind Subject)) (action : Action Kind Subject) :
    since subject (before ++ [action]) = action.renewed subject (since subject before) := by
  rw [since, List.foldl_append, since, List.foldl_cons, List.foldl_nil]

omit [DecidableEq Subject] in
theorem Lives.of_concat {action : Action Kind Subject} (h : Lives subject (before ++ [action])) :
    Lives subject before ∧ action ≠ .release subject := by
  simp only [Lives, List.mem_append, List.mem_singleton, not_or] at h
  exact ⟨h.1, Ne.symm h.2⟩

/-- What was subscribed since the last unsubscribe is what was subscribed last. -/
theorem since_suffix (h : Lives subject actions) :
    since subject actions <:+ (run actions).held subject := by
  induction actions using List.reverseRecOn with
  | nil => exact List.nil_suffix
  | append_singleton before action ih =>
      obtain ⟨hbefore, haction⟩ := h.of_concat
      obtain ⟨stale, hstale⟩ := ih hbefore
      rw [run_concat, held_perform haction, since_concat, ← hstale]
      cases action with
      | subscribe other event =>
          simp only [Action.renewed, Action.queued]
          split
          · exact ⟨stale, (List.append_assoc _ _ _).symm⟩
          · exact ⟨stale, rfl⟩
      | unsubscribe other =>
          simp only [Action.renewed, Action.queued]
          split
          · exact List.nil_suffix
          · exact ⟨stale, rfl⟩
      | publish event => exact ⟨stale, rfl⟩
      | release other => exact ⟨stale, rfl⟩

/-! ## Notifications -/

variable [DecidableEq Kind] {domainEvent : Kind}

/-- A subscription to a kind of events, or to `DomainEvent`, matches an event. -/
def isMatch (domainEvent event type : Kind) : Bool := type = event ∨ type = domainEvent

/-- The subscribers that `handleEvent(_:)` notifies, in their order. -/
def notified (domainEvent : Kind) (relay : EventRelay Kind Subject) (event : Kind) :
    List Subject :=
  (relay.removeWeakNils.subscribers.filter fun entry =>
    isMatch domainEvent event entry.1).filterMap Prod.snd

/-- The number of times a subscriber is notified of an event that is published after the
actions. -/
def notifications (domainEvent : Kind) (actions : List (Action Kind Subject)) (event : Kind)
    (subject : Subject) : ℕ :=
  (notified domainEvent (run actions) event).count subject

/-- An event published after the actions notifies the subscriber once for each matching
subscription made after its last unsubscribe. -/
def Silent (domainEvent : Kind) (subject : Subject) (actions : List (Action Kind Subject)) : Prop :=
  ∀ event, notifications domainEvent actions event subject =
    (since subject actions).countP (isMatch domainEvent event)

/-- So it is at every point of the sequence. -/
def AlwaysSilent (domainEvent : Kind) (subject : Subject) (actions : List (Action Kind Subject)) :
    Prop :=
  ∀ before, before <+: actions → Silent domainEvent subject before

/-- A subscriber is notified for each matching subscription that it holds. -/
theorem notifications_eq : notifications domainEvent actions event subject =
    ((run actions).held subject).countP (isMatch domainEvent event) := by
  rw [notifications, notified, ← held_removeWeakNils, held]
  generalize (run actions).removeWeakNils.subscribers = entries
  induction entries with
  | nil => rfl
  | cons entry rest ih =>
      obtain ⟨kind, reference⟩ := entry
      by_cases hmatch : isMatch domainEvent event kind = true
      · by_cases hsubject : reference = some subject
        · simp [hmatch, hsubject, ih]
        · cases reference with
          | none => simpa [hmatch] using ih
          | some other =>
              have hne : other ≠ subject := fun heq => hsubject (heq ▸ rfl)
              simpa [hmatch, hne] using ih
      · by_cases hsubject : reference = some subject
        · simp [hmatch, hsubject, ih]
        · simpa [hmatch, hsubject] using ih

/-- The subscriber is notified as it should be exactly if it holds nothing older. -/
theorem silent_iff_held (h : Lives subject actions) : Silent domainEvent subject actions ↔
    (run actions).held subject = since subject actions := by
  constructor
  · intro hsilent
    obtain ⟨stale, hstale⟩ := since_suffix h
    cases stale with
    | nil => exact hstale.symm
    | cons kind rest =>
        -- An event of the oldest kind is one too many.
        have hcount := hsilent kind
        rw [notifications_eq, ← hstale, List.countP_append, List.countP_cons_of_pos
          (by simp [isMatch])] at hcount
        omega
  · intro hheld event
    rw [notifications_eq, hheld]

/-- At every point of a sequence the subscriber is notified as it should be exactly if it never
unsubscribes with more than one subscription. -/
theorem alwaysSilent_iff_sparse (h : Lives subject actions) :
    AlwaysSilent domainEvent subject actions ↔ Sparse subject actions := by
  have hlives : ∀ {before : List (Action Kind Subject)}, before <+: actions →
      Lives subject before := fun hfront hmem => h (hfront.subset hmem)
  constructor
  · intro hsilent before hfront
    have hbefore : before <+: actions := (List.prefix_append _ _).trans hfront
    have hheld := (silent_iff_held (hlives hbefore)).mp (hsilent before hbefore)
    have hafter := (silent_iff_held (hlives hfront)).mp (hsilent _ hfront)
    rw [run_concat, perform, held_unsubscribe, if_pos rfl, since_concat, hheld] at hafter
    simp only [Action.renewed, if_true] at hafter
    have hlength := congrArg List.length hafter
    rw [List.length_tail, List.length_nil] at hlength
    omega
  · intro hsparse before hfront
    rw [silent_iff_held (hlives hfront)]
    -- By induction on the sequence: nothing older is held.
    induction before using List.reverseRecOn with
    | nil => rfl
    | append_singleton before action ih =>
        have hbefore : before <+: actions := (List.prefix_append _ _).trans hfront
        obtain ⟨-, haction⟩ := (hlives hfront).of_concat
        rw [run_concat, held_perform haction, since_concat, ih hbefore]
        cases action with
        | subscribe other event => rfl
        | unsubscribe other =>
            simp only [Action.renewed, Action.queued]
            split
            · rename_i heq
              subst heq
              have hlength := hsparse before hfront
              exact List.eq_nil_of_length_eq_zero (by rw [List.length_tail]; omega)
            · rfl
        | publish event => rfl
        | release other => rfl

/-! ## Screens that subscribe again -/

/-- The kinds of events that `subscribeForWalletStateChanges(subscriber:)` subscribes to, and
the class of all events. -/
inductive WalletStateChange
  | domainEvent
  | deploymentStarted
  | startedWaitingForFirstDeposit
  | startedWaitingForRemainingFeeAmount
  | deploymentFunded
  | creationStarted
  | walletTransactionHashIsKnown
  | walletCreated
  | walletCreationFailed
  | accountsBalancesUpdated
  | deploymentAborted
  | recoveryStarted
  | recoveryAborted
  | walletRecovered
  | walletRecoveryFailed
  deriving DecidableEq, Repr

/-- `subscribeForWalletStateChanges(subscriber:)`. -/
def subscribeForWalletStateChanges (subscriber : Subject) :
    List (Action WalletStateChange Subject) :=
  .unsubscribe subscriber :: ([.deploymentStarted, .startedWaitingForFirstDeposit,
    .startedWaitingForRemainingFeeAmount, .deploymentFunded, .creationStarted,
    .walletTransactionHashIsKnown, .walletCreated, .walletCreationFailed,
    .accountsBalancesUpdated, .deploymentAborted, .recoveryStarted, .recoveryAborted,
    .walletRecovered, .walletRecoveryFailed] : List WalletStateChange).map (.subscribe subscriber)

/-- A screen that appears once is notified once of each event. -/
theorem firstScreen_silent :
    AlwaysSilent .domainEvent "Screen" (subscribeForWalletStateChanges "Screen") := by
  have hlives : Lives "Screen" (subscribeForWalletStateChanges "Screen") := by
    simp [Lives, subscribeForWalletStateChanges]
  refine (alwaysSilent_iff_sparse hlives).mpr fun before hfront => ?_
  -- It unsubscribes first of all.
  obtain ⟨rest, hrest⟩ := hfront
  cases before with
  | nil => simp [since]
  | cons action before =>
      have htail := congrArg List.tail hrest
      have hmem : Action.unsubscribe "Screen" ∈
          (subscribeForWalletStateChanges "Screen").tail := by
        rw [← htail]
        simp
      simp [subscribeForWalletStateChanges] at hmem

/-- A screen that appears again is notified twice of what it had subscribed to before. -/
theorem secondScreen_notified_twice :
    notifications .domainEvent
        (subscribeForWalletStateChanges "Screen" ++ subscribeForWalletStateChanges "Screen")
        .walletCreated "Screen" = 2 ∧
      ¬AlwaysSilent .domainEvent "Screen"
        (subscribeForWalletStateChanges "Screen" ++ subscribeForWalletStateChanges "Screen") := by
  have htwice : notifications WalletStateChange.domainEvent
      (subscribeForWalletStateChanges "Screen" ++ subscribeForWalletStateChanges "Screen")
      .walletCreated "Screen" = 2 := by
    decide
  refine ⟨htwice, fun hsilent => ?_⟩
  have honce := hsilent _ List.prefix_rfl .walletCreated
  rw [htwice] at honce
  revert honce
  decide

end EventRelay

end SafeWallet
