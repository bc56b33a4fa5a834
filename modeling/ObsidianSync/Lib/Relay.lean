import Mathlib.Order.Lattice
import Mathlib.Order.BoundedOrder.Basic
import Mathlib.Data.List.Basic

/-!
# Relayed updates

A document is replicated from a place where updates are merged and numbered.  A replica begins with
the state of an incarnation of the document; then the numbered updates of others are relayed to it,
and its own are acknowledged with their numbers, until the incarnation is closed.  It merges an
update that follows the last number it has seen, or any as long as it has seen none.

What a replica will be when everything that is on its way to it has arrived is a function of the
replica and of these messages.  So the place and a replica agree if that is what the place has: an
arrival changes nothing about it, and whatever the place does only appends to the messages.

## Main definitions

* `Relay.Message`, `Relay.Replica` — what is on its way, and what is there.
* `Relay.take`, `Relay.taken` — a message, and all of them, arrive.
* `Relay.InOrder` — no update arrives before one that it follows.
* `Relay.Follows`, `Relay.Absent` — what there will be: the given document, or no replica.

## Main results

* `Relay.Follows.update`, `Relay.Follows.ack`, `Relay.Follows.closed` — what the next messages do.
* `Relay.Follows.merge` — a change of the replica's own may be made before they arrive or after.
* `Relay.Follows.doc_le`, `Relay.Follows.le_sup_held` — a replica lacks what is on its way at most.
-/

namespace Relay

/-- What is on its way to a replica. -/
inductive Message (D : Type*)
  | state (epoch : ℕ) (doc : D)
  | update (epoch seq : ℕ) (change : D)
  | ack (epoch seq : ℕ)
  | closed (epoch : ℕ)
  | notice

/-- A replica of an incarnation, and the last number that it has seen. -/
structure Replica (D : Type*) where
  epoch : ℕ
  doc : D
  lastSeq : ℕ := 0

variable {D : Type*} [SemilatticeSup D]

/-- The replica merges what it makes or gets. -/
def Replica.merge (change : D) (replica : Replica D) : Replica D :=
  { replica with doc := replica.doc ⊔ change }

/-- The next update, or the first one. -/
def Replica.Expects (replica : Replica D) (seq : ℕ) : Prop :=
  replica.lastSeq < seq ∧ (replica.lastSeq = 0 ∨ seq = replica.lastSeq + 1)

instance (replica : Replica D) (seq : ℕ) : Decidable (replica.Expects seq) :=
  inferInstanceAs (Decidable (_ ∧ _))

/-- An update is relayed to a replica. -/
def Replica.applyUpdate (epoch seq : ℕ) (change : D) (replica : Replica D) : Replica D :=
  if replica.epoch = epoch ∧ replica.Expects seq then
    { replica.merge change with lastSeq := seq }
  else replica

/-- An update of the replica's own is acknowledged. -/
def Replica.applyAck (epoch seq : ℕ) (replica : Replica D) : Replica D :=
  if replica.epoch = epoch then { replica with lastSeq := max replica.lastSeq seq } else replica

/-- A message arrives where there is a replica, or none. -/
def take (start : Option (Replica D)) : Message D → Option (Replica D)
  | .state epoch doc =>
    if start.any fun replica => replica.epoch = epoch then start else some { epoch, doc }
  | .update epoch seq change => start.map (Replica.applyUpdate epoch seq change)
  | .ack epoch seq => start.map (Replica.applyAck epoch seq)
  | .closed epoch => start.filter fun replica => replica.epoch ≠ epoch
  | .notice => start

/-- Messages arrive one after the other. -/
def taken (start : Option (Replica D)) (messages : List (Message D)) : Option (Replica D) :=
  messages.foldl take start

/-- An update comes before one that it follows. -/
def Replica.MissesBefore (replica : Replica D) : Message D → Prop
  | .update epoch seq _ =>
    replica.epoch = epoch ∧ 0 < replica.lastSeq ∧ replica.lastSeq + 1 < seq
  | _ => False

/-- No update arrives before one that it follows. -/
def InOrder : Option (Replica D) → List (Message D) → Prop
  | _, [] => True
  | start, message :: messages =>
    (∀ replica ∈ start, ¬ replica.MissesBefore message) ∧ InOrder (take start message) messages

/-- A message that no replica begins with. -/
def Message.isState : Message D → Bool
  | .state .. => true
  | _ => false

/-! ### Messages that arrive -/

section

variable {start : Option (Replica D)} {message : Message D} {messages more : List (Message D)}

@[simp] theorem taken_nil (start : Option (Replica D)) : taken start [] = start := rfl

@[simp] theorem taken_cons (start : Option (Replica D)) (message : Message D)
    (messages : List (Message D)) :
    taken start (message :: messages) = taken (take start message) messages := rfl

theorem taken_append (start : Option (Replica D)) (messages more : List (Message D)) :
    taken start (messages ++ more) = taken (taken start messages) more :=
  List.foldl_append

theorem inOrder_append :
    InOrder start (messages ++ more)
      ↔ InOrder start messages ∧ InOrder (taken start messages) more := by
  induction messages generalizing start with
  | nil => exact (and_iff_right trivial).symm
  | cons message messages ih =>
    rw [List.cons_append, InOrder, InOrder, taken_cons, ih, and_assoc]

theorem take_none (h : message.isState = false) :
    take (none : Option (Replica D)) message = none := by
  cases message with
  | state epoch doc => exact absurd h Bool.noConfusion
  | _ => rfl

/-- Only a state begins a replica. -/
theorem isSome_take (start : Option (Replica D)) (message : Message D) :
    (if (take start message).isSome then 1 else 0)
      ≤ (if start.isSome then 1 else 0) + if message.isState then 1 else 0 := by
  cases start with
  | none => cases message <;> simp [take, Message.isState]
  | some replica =>
    rw [Option.isSome_some, if_pos rfl]
    split <;> omega

/-- Without a state no replica begins. -/
theorem taken_none (h : ∀ message ∈ messages, message.isState = false) :
    taken (none : Option (Replica D)) messages = none := by
  induction messages with
  | nil => rfl
  | cons message messages ih =>
    rw [taken_cons, take_none (h message List.mem_cons_self)]
    exact ih fun each heach => h each (List.mem_cons_of_mem _ heach)

theorem inOrder_none (h : ∀ message ∈ messages, message.isState = false) :
    InOrder (none : Option (Replica D)) messages := by
  induction messages with
  | nil => trivial
  | cons message messages ih =>
    refine ⟨fun replica hreplica => absurd hreplica.symm (Option.some_ne_none _), ?_⟩
    rw [take_none (h message List.mem_cons_self)]
    exact ih fun each heach => h each (List.mem_cons_of_mem _ heach)

/-! ### Changes of its own -/

theorem applyUpdate_merge (epoch seq : ℕ) (update change : D) (replica : Replica D) :
    (replica.merge change).applyUpdate epoch seq update
      = (replica.applyUpdate epoch seq update).merge change := by
  have hsame : (replica.merge change).epoch = epoch ∧ (replica.merge change).Expects seq
      ↔ replica.epoch = epoch ∧ replica.Expects seq := Iff.rfl
  unfold Replica.applyUpdate
  by_cases hexpects : replica.epoch = epoch ∧ replica.Expects seq
  · rw [if_pos (hsame.mpr hexpects), if_pos hexpects]
    unfold Replica.merge
    dsimp only
    rw [sup_right_comm]
  · rw [if_neg (hsame.not.mpr hexpects), if_neg hexpects]

theorem applyAck_merge (epoch seq : ℕ) (change : D) (replica : Replica D) :
    (replica.merge change).applyAck epoch seq = (replica.applyAck epoch seq).merge change := by
  unfold Replica.applyAck
  split
  · next hepoch => rw [if_pos (show replica.epoch = epoch from hepoch)]; rfl
  · next hepoch => rw [if_neg (show ¬ replica.epoch = epoch from hepoch)]

theorem take_merge (start : Option (Replica D)) (change : D) (h : message.isState = false) :
    take (start.map (Replica.merge change)) message
      = (take start message).map (Replica.merge change) := by
  cases start with
  | none => rw [Option.map_none, take_none h, Option.map_none]
  | some replica =>
    cases message with
    | state epoch doc => exact absurd h Bool.noConfusion
    | update epoch seq update => exact congrArg some (applyUpdate_merge epoch seq update change _)
    | ack epoch seq => exact congrArg some (applyAck_merge epoch seq change _)
    | closed epoch =>
      by_cases hepoch : replica.epoch = epoch
      · simp [take, Option.filter, Replica.merge, hepoch]
      · simp [take, Option.filter, Replica.merge, hepoch]
    | notice => rfl

/-- **A replica may make a change before the messages arrive or after.** -/
theorem taken_merge (start : Option (Replica D)) (change : D)
    (h : ∀ message ∈ messages, message.isState = false) :
    taken (start.map (Replica.merge change)) messages
      = (taken start messages).map (Replica.merge change) := by
  induction messages generalizing start with
  | nil => rfl
  | cons message messages ih =>
    rw [taken_cons, taken_cons, take_merge start change (h message List.mem_cons_self)]
    exact ih _ fun each heach => h each (List.mem_cons_of_mem _ heach)

theorem inOrder_merge (start : Option (Replica D)) (change : D)
    (h : ∀ message ∈ messages, message.isState = false) (horder : InOrder start messages) :
    InOrder (start.map (Replica.merge change)) messages := by
  induction messages generalizing start with
  | nil => trivial
  | cons message messages ih =>
    refine ⟨?_, ?_⟩
    · intro replica hreplica
      obtain ⟨before, hbefore, rfl⟩ := Option.map_eq_some_iff.mp hreplica
      have hmisses := horder.1 before hbefore
      cases message <;> exact hmisses
    · rw [take_merge start change (h message List.mem_cons_self)]
      exact ih _ (fun each heach => h each (List.mem_cons_of_mem _ heach)) horder.2

/-! ### Messages that are sent more than once -/

theorem missesBefore_take (h : ∀ replica ∈ start, ¬ replica.MissesBefore message) :
    ∀ replica ∈ take start message, ¬ replica.MissesBefore message := by
  intro replica hreplica hmisses
  cases message with
  | update epoch seq change =>
    obtain ⟨before, hbefore, rfl⟩ := Option.map_eq_some_iff.mp hreplica
    unfold Replica.applyUpdate at hmisses
    split at hmisses
    · have hlast : seq + 1 < seq := hmisses.2.2
      omega
    · exact h before hbefore hmisses
  | _ => exact hmisses

theorem take_idem (start : Option (Replica D)) (message : Message D) :
    take (take start message) message = take start message := by
  cases start with
  | none => cases message <;> simp [take]
  | some replica =>
    cases message with
    | state epoch doc => by_cases hepoch : replica.epoch = epoch <;> simp [take, hepoch]
    | update epoch seq change =>
      refine congrArg some ?_
      by_cases hexpects : replica.epoch = epoch ∧ replica.Expects seq
      · have hseen : ¬ ((replica.applyUpdate epoch seq change).epoch = epoch ∧
            (replica.applyUpdate epoch seq change).Expects seq) := by
          unfold Replica.applyUpdate
          rw [if_pos hexpects]
          exact fun h => Nat.lt_irrefl seq h.2.1
        exact if_neg hseen
      · have hsame : replica.applyUpdate epoch seq change = replica := if_neg hexpects
        rw [hsame, hsame]
    | ack epoch seq =>
      refine congrArg some ?_
      by_cases hepoch : replica.epoch = epoch <;> simp [Replica.applyAck, hepoch]
    | closed epoch => by_cases hepoch : replica.epoch = epoch <;> simp [take, Option.filter, hepoch]
    | notice => rfl

/-- A message that is sent more than once does what it does once. -/
theorem taken_of_forall_eq (start : Option (Replica D)) (hne : messages ≠ [])
    (h : ∀ each ∈ messages, each = message) : taken start messages = take start message := by
  induction messages generalizing start with
  | nil => exact absurd rfl hne
  | cons first messages ih =>
    obtain rfl := h first List.mem_cons_self
    rw [taken_cons]
    by_cases hlast : messages = []
    · rw [hlast, taken_nil]
    · rw [ih _ hlast fun each heach => h each (List.mem_cons_of_mem _ heach), take_idem]

theorem inOrder_of_forall_eq (h : ∀ each ∈ messages, each = message)
    (hstart : ∀ replica ∈ start, ¬ replica.MissesBefore message) : InOrder start messages := by
  induction messages generalizing start with
  | nil => trivial
  | cons first messages ih =>
    obtain rfl := h first List.mem_cons_self
    exact ⟨hstart, ih (fun each heach => h each (List.mem_cons_of_mem _ heach))
      (missesBefore_take hstart)⟩

end

/-! ### What there will be -/

/-- There will be no replica. -/
structure Absent (start : Option (Replica D)) (messages : List (Message D)) : Prop where
  inOrder : InOrder start messages
  taken : taken start messages = none

/-- There will be a replica of the incarnation with this document, which has seen this number, or
none. -/
structure Follows (epoch : ℕ) (doc : D) (seq : ℕ) (start : Option (Replica D))
    (messages : List (Message D)) : Prop where
  inOrder : InOrder start messages
  taken : ∃ replica, taken start messages = some replica ∧ replica.epoch = epoch ∧
    replica.doc = doc ∧ (replica.lastSeq = 0 ∨ replica.lastSeq = seq)

section

variable {start : Option (Replica D)} {message : Message D} {messages more : List (Message D)}
  {epoch seq : ℕ} {doc change : D}

theorem absent_none (h : ∀ message ∈ messages, message.isState = false) :
    Absent (none : Option (Replica D)) messages :=
  ⟨inOrder_none h, taken_none h⟩

theorem Absent.append (h : Absent start messages) (hmore : ∀ each ∈ more, each.isState = false) :
    Absent start (messages ++ more) := by
  refine ⟨inOrder_append.mpr ⟨h.inOrder, ?_⟩, ?_⟩
  · rw [h.taken]
    exact inOrder_none hmore
  · rw [taken_append, h.taken, taken_none hmore]

theorem Absent.merge (h : Absent start messages)
    (hmessages : ∀ each ∈ messages, each.isState = false) (change : D) :
    Absent (start.map (Replica.merge change)) messages :=
  ⟨inOrder_merge start change hmessages h.inOrder,
    by rw [taken_merge start change hmessages, h.taken, Option.map_none]⟩

theorem Absent.arrive (h : Absent start (message :: messages)) :
    Absent (take start message) messages :=
  ⟨h.inOrder.2, h.taken⟩

/-- A replica begins. -/
theorem Absent.state (h : Absent start messages) (epoch seq : ℕ) (doc : D) :
    Follows epoch doc seq start (messages ++ [.state epoch doc]) := by
  refine ⟨inOrder_append.mpr ⟨h.inOrder, ?_⟩, { epoch, doc }, ?_, rfl, rfl, Or.inl rfl⟩
  · rw [h.taken]
    exact ⟨fun replica hreplica => absurd hreplica.symm (Option.some_ne_none _), trivial⟩
  · rw [taken_append, h.taken]
    rfl

theorem Follows.arrive (h : Follows epoch doc seq start (message :: messages)) :
    Follows epoch doc seq (take start message) messages :=
  ⟨h.inOrder.2, h.taken⟩

theorem Follows.merge (h : Follows epoch doc seq start messages)
    (hmessages : ∀ each ∈ messages, each.isState = false) (change : D) :
    Follows epoch (doc ⊔ change) seq (start.map (Replica.merge change)) messages := by
  obtain ⟨replica, htaken, hepoch, rfl, hseq⟩ := h.taken
  refine ⟨inOrder_merge start change hmessages h.inOrder, replica.merge change, ?_, hepoch, rfl,
    hseq⟩
  rw [taken_merge start change hmessages, htaken, Option.map_some]

/-- Notices change nothing. -/
theorem Follows.notices (h : Follows epoch doc seq start messages)
    (hmore : ∀ each ∈ more, each = .notice) :
    Follows epoch doc seq start (messages ++ more) := by
  by_cases hnone : more = []
  · rwa [hnone, List.append_nil]
  · refine ⟨inOrder_append.mpr ⟨h.inOrder, inOrder_of_forall_eq hmore fun _ _ => id⟩, ?_⟩
    rw [taken_append, taken_of_forall_eq _ hnone hmore]
    exact h.taken

/-- The next update is merged. -/
theorem Follows.update (h : Follows epoch doc seq start messages) (hne : more ≠ [])
    (hmore : ∀ each ∈ more, each = .update epoch (seq + 1) change) :
    Follows epoch (doc ⊔ change) (seq + 1) start (messages ++ more) := by
  obtain ⟨replica, htaken, hepoch, rfl, hseq⟩ := h.taken
  have hexpects : replica.epoch = epoch ∧ replica.Expects (seq + 1) := by
    refine ⟨hepoch, ?_⟩
    unfold Replica.Expects
    -- It has seen the number before this one, or none at all and takes any.
    rcases hseq with hnone | hlast <;> omega
  refine ⟨inOrder_append.mpr ⟨h.inOrder, inOrder_of_forall_eq hmore ?_⟩,
    { replica.merge change with lastSeq := seq + 1 }, ?_, hepoch, rfl, Or.inr rfl⟩
  · rintro each heach ⟨-, hpos, hgap⟩
    obtain rfl := Option.some.inj (htaken.symm.trans heach)
    rcases hseq with hnone | hlast <;> omega
  · rw [taken_append, taken_of_forall_eq _ hne hmore, htaken]
    exact congrArg some (if_pos hexpects)

/-- An update of its own has the next number. -/
theorem Follows.ack (h : Follows epoch doc seq start messages) :
    Follows epoch doc (seq + 1) start (messages ++ [.ack epoch (seq + 1)]) := by
  obtain ⟨replica, htaken, hepoch, rfl, hseq⟩ := h.taken
  refine ⟨inOrder_append.mpr ⟨h.inOrder, fun _ _ => id, trivial⟩,
    { replica with lastSeq := max replica.lastSeq (seq + 1) }, ?_, hepoch, rfl, Or.inr ?_⟩
  · rw [taken_append, htaken]
    exact congrArg some (if_pos hepoch)
  · show max replica.lastSeq (seq + 1) = seq + 1
    rcases hseq with hnone | hlast <;> omega

/-- The incarnation ends. -/
theorem Follows.closed (h : Follows epoch doc seq start messages) (hne : more ≠ [])
    (hmore : ∀ each ∈ more, each = .closed epoch) : Absent start (messages ++ more) := by
  obtain ⟨replica, htaken, rfl, -, -⟩ := h.taken
  refine ⟨inOrder_append.mpr ⟨h.inOrder, inOrder_of_forall_eq hmore fun _ _ => id⟩, ?_⟩
  rw [taken_append, taken_of_forall_eq _ hne hmore, htaken]
  simp [take, Option.filter]

/-! ### Holding what is on its way -/

theorem exists_take (replica : Replica D) (h : message.isState = false) :
    take (some replica) message = none ∨ ∃ next, take (some replica) message = some next ∧
      replica.doc ≤ next.doc ∧ replica.epoch = next.epoch := by
  cases message with
  | state epoch doc => exact absurd h Bool.noConfusion
  | update epoch seq change =>
    refine Or.inr ⟨_, rfl, ?_⟩
    unfold Replica.applyUpdate
    split
    · exact ⟨le_sup_left, rfl⟩
    · exact ⟨le_rfl, rfl⟩
  | ack epoch seq =>
    refine Or.inr ⟨_, rfl, ?_⟩
    unfold Replica.applyAck
    split <;> exact ⟨le_rfl, rfl⟩
  | closed epoch =>
    by_cases hepoch : replica.epoch = epoch
    · exact Or.inl (by simp [take, Option.filter, hepoch])
    · exact Or.inr ⟨replica, by simp [take, Option.filter, hepoch], le_rfl, rfl⟩
  | notice => exact Or.inr ⟨replica, rfl, le_rfl, rfl⟩

/-- A replica keeps what it holds, and stays one of its incarnation. -/
theorem le_of_taken {replica last : Replica D}
    (hmessages : ∀ each ∈ messages, each.isState = false)
    (h : taken (some replica) messages = some last) :
    replica.doc ≤ last.doc ∧ replica.epoch = last.epoch := by
  induction messages generalizing replica with
  | nil =>
    obtain rfl := Option.some.inj h
    exact ⟨le_rfl, rfl⟩
  | cons message messages ih =>
    have hrest := fun each heach => hmessages each (List.mem_cons_of_mem _ heach)
    rw [taken_cons] at h
    rcases exists_take replica (hmessages message List.mem_cons_self) with
      hnone | ⟨next, hnext, hle, hepoch⟩
    · -- A replica that has ended does not begin again without a state.
      rw [hnone, taken_none hrest] at h
      exact absurd h.symm (Option.some_ne_none _)
    · rw [hnext] at h
      obtain ⟨hle', hepoch'⟩ := ih hrest h
      exact ⟨hle.trans hle', hepoch.trans hepoch'⟩

/-- A replica holds nothing that the document will not have. -/
theorem Follows.doc_le {replica : Replica D}
    (h : Follows epoch doc seq (some replica) messages)
    (hmessages : ∀ each ∈ messages, each.isState = false) :
    replica.doc ≤ doc ∧ replica.epoch = epoch := by
  obtain ⟨last, htaken, rfl, rfl, -⟩ := h.taken
  exact le_of_taken hmessages htaken

variable [OrderBot D]

/-- What a message brings. -/
def Message.held : Message D → D
  | .state _ doc => doc
  | .update _ _ change => change
  | _ => ⊥

/-- What messages bring. -/
def held (messages : List (Message D)) : D :=
  messages.foldr (fun message doc => message.held ⊔ doc) ⊥

/-- What there is, if there is a replica. -/
def present (start : Option (Replica D)) : D := start.elim ⊥ Replica.doc

theorem present_take (start : Option (Replica D)) (message : Message D) :
    present (take start message) ≤ present start ⊔ message.held := by
  cases start with
  | none => cases message <;> first | exact bot_le | exact le_sup_right
  | some replica =>
    cases message with
    | state epoch doc =>
      by_cases hepoch : replica.epoch = epoch
      · simp [take, hepoch, present]
      · simp [take, hepoch, present, Message.held]
    | update epoch seq change =>
      show (replica.applyUpdate epoch seq change).doc ≤ replica.doc ⊔ change
      unfold Replica.applyUpdate
      split
      · exact le_rfl
      · exact le_sup_left
    | ack epoch seq =>
      refine le_trans (le_of_eq ?_) le_sup_left
      show (replica.applyAck epoch seq).doc = replica.doc
      unfold Replica.applyAck
      split <;> rfl
    | closed epoch =>
      by_cases hepoch : replica.epoch = epoch <;> simp [take, Option.filter, hepoch, present]
    | notice => exact le_sup_left

theorem present_taken (start : Option (Replica D)) (messages : List (Message D)) :
    present (taken start messages) ≤ present start ⊔ held messages := by
  induction messages generalizing start with
  | nil => exact le_sup_left
  | cons message messages ih =>
    calc present (taken start (message :: messages))
        ≤ present (take start message) ⊔ held messages := ih _
      _ ≤ present start ⊔ message.held ⊔ held messages :=
        sup_le_sup_right (present_take start message) _
      _ = present start ⊔ held (message :: messages) := sup_assoc _ _ _

/-- A replica lacks what is on its way at most. -/
theorem Follows.le_sup_held (h : Follows epoch doc seq start messages) :
    doc ≤ present start ⊔ held messages := by
  obtain ⟨last, htaken, -, rfl, -⟩ := h.taken
  have hle := present_taken start messages
  rwa [htaken] at hle

end

end Relay
