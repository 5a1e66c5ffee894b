/-
Descriptors in hand.

An end of a pipe, the file of a redirection, or the duplicate that a builtin writes to, is in hand from the event that
brings it to the event that closes it. A duplicate goes by the name of what it is a duplicate of, so a descriptor can
be in hand more than once. `inHand` goes through a log with what is in hand, and refuses to close anything that is
not. So a log that goes through closes nothing once too often and nothing that is not the shell's, and what it comes
to are the descriptors that have not been closed (`inHand_balance`).
-/
import LineShell.Proofs.Lifecycle

namespace LineShell

/-! ## events that bring and close -/

namespace Event

/-- the descriptors that an event makes: the ends of a pipe, or an open file -/
def makes : Event → List Descriptor
  | piped (.ok p) => p.ends
  | redirected _ _ (.ok d) => [d]
  | _ => []

/-- the descriptor of which an event makes a duplicate -/
def copied? : Event → Option Descriptor
  | duplicated d (.ok _) => some d
  | _ => none

/-- the descriptors that an event brings: those that it makes, and a duplicate -/
def brings (x : Event) : List Descriptor := x.makes ++ x.copied?.toList

/-- the descriptor that an event closes -/
def closed? : Event → Option Descriptor
  | closed d => some d
  | _ => none

end Event

/-! ## what is in hand -/

/-- what is in hand behind an event; none if the event closes what is not in hand -/
def handle (held : Multiset Descriptor) : Event → Option (Multiset Descriptor)
  | .closed d => if d ∈ held then some (held.erase d) else none
  | x => some (held + x.brings)

/-- what is in hand behind a log -/
def inHand (held : Multiset Descriptor) (evs : List Event) : Option (Multiset Descriptor) := evs.foldlM handle held

variable {held held' : Multiset Descriptor} {evs : List Event}

theorem inHand_cons (held : Multiset Descriptor) (x : Event) (evs : List Event) :
    inHand held (x :: evs) = (handle held x).bind (inHand · evs) := rfl

theorem inHand_append (held : Multiset Descriptor) (evs evs' : List Event) :
    inHand held (evs ++ evs') = (inHand held evs).bind (inHand · evs') := by
  simp [inHand, List.foldlM_append]

theorem handle_of_closed?_eq_none {x : Event} (h : x.closed? = none) (held : Multiset Descriptor) :
    handle held x = some (held + x.brings) := by
  cases x with
  | closed d => cases h
  | _ => rfl

/-- a pipe that could not be made brings nothing -/
theorem handle_unpiped (f : Failure) (held : Multiset Descriptor) : handle held (.piped (.error f)) = some held :=
  congrArg some (Multiset.add_zero held)

/-- what is in hand besides does not matter -/
theorem handle_add {x : Event} (h : handle held x = some held') (more : Multiset Descriptor) :
    handle (held + more) x = some (held' + more) := by
  cases hx : x.closed? with
  | none =>
    rw [handle_of_closed?_eq_none hx] at h ⊢
    obtain rfl := Option.some.inj h
    rw [add_right_comm]
  | some d =>
    obtain rfl : x = .closed d := by
      cases x <;> cases hx
      rfl
    simp only [handle] at h ⊢
    split at h
    · rename_i hmem
      obtain rfl := Option.some.inj h
      rw [if_pos (Multiset.mem_add.2 (.inl hmem)), Multiset.erase_add_left_pos more hmem]
    · cases h

theorem inHand_add (h : inHand held evs = some held') (more : Multiset Descriptor) :
    inHand (held + more) evs = some (held' + more) := by
  induction evs generalizing held with
  | nil =>
    obtain rfl := Option.some.inj h
    rfl
  | cons x evs ih =>
    rw [inHand_cons] at h
    obtain ⟨mid, hmid, h⟩ := Option.bind_eq_some_iff.1 h
    rw [inHand_cons, handle_add hmid more, Option.bind_some]
    exact ih h

/-- events that bring nothing and close nothing -/
theorem inHand_idle (h : ∀ x ∈ evs, x.closed? = none ∧ x.brings = []) (held : Multiset Descriptor) :
    inHand held evs = some held := by
  induction evs with
  | nil => rfl
  | cons x evs ih =>
    obtain ⟨hclosed, hbrings⟩ := h x List.mem_cons_self
    rw [inHand_cons, handle_of_closed?_eq_none hclosed, hbrings, Multiset.coe_nil, Multiset.add_zero]
    exact ih fun y hy => h y (List.mem_cons_of_mem x hy)

/-- closing what is in hand leaves the rest -/
theorem inHand_closed (ds : List Descriptor) (held : Multiset Descriptor) :
    inHand (ds + held) (ds.map .closed) = some held := by
  induction ds with
  | nil => rw [Multiset.coe_nil, Multiset.zero_add]; rfl
  | cons d ds ih =>
    have hhead : handle ((d :: ds : List Descriptor) + held) (.closed d) = some (ds + held) := by
      rw [← Multiset.cons_coe, Multiset.cons_add]
      simp [handle]
    rw [List.map_cons, inHand_cons, hhead]
    exact ih

/-- closing all that is in hand leaves nothing -/
theorem inHand_all_closed (ds : List Descriptor) : inHand ds (ds.map .closed) = some 0 := by
  have h := inHand_closed ds 0
  rwa [Multiset.add_zero] at h

theorem inHand_made (ps : List Pipe) (held : Multiset Descriptor) :
    inHand held (ps.map .made) = some (held + ps.flatMap Pipe.ends) := by
  induction ps generalizing held with
  | nil => rw [List.flatMap_nil, Multiset.coe_nil, Multiset.add_zero]; rfl
  | cons p ps ih =>
    have hhead : handle held (.made p) = some (held + p.ends) := rfl
    rw [List.map_cons, inHand_cons, hhead, Option.bind_some, ih, List.flatMap_cons, ← Multiset.coe_add, add_assoc]

/-! ## what comes in and goes out -/

theorem handle_balance {x : Event} (h : handle held x = some held') :
    held + x.brings = held' + (x.closed?.toList : Multiset Descriptor) := by
  cases hx : x.closed? with
  | none =>
    rw [handle_of_closed?_eq_none hx] at h
    rw [Option.some.inj h, Option.toList_none, Multiset.coe_nil, Multiset.add_zero]
  | some d =>
    obtain rfl : x = .closed d := by
      cases x <;> cases hx
      rfl
    simp only [handle] at h
    split at h
    · rename_i hmem
      obtain rfl := Option.some.inj h
      exact Ledger.struckOut hmem
    · cases h

/-- what was in hand and what was brought is what is in hand and what was closed -/
theorem inHand_balance (h : inHand held evs = some held') :
    held + (evs.flatMap Event.brings : Multiset Descriptor) =
      held' + (evs.filterMap Event.closed? : Multiset Descriptor) := by
  induction evs generalizing held with
  | nil =>
    obtain rfl := Option.some.inj h
    rfl
  | cons x evs ih =>
    rw [inHand_cons] at h
    obtain ⟨mid, hmid, h⟩ := Option.bind_eq_some_iff.1 h
    have hclosed : ((x :: evs).filterMap Event.closed? : Multiset Descriptor) =
        (x.closed?.toList : Multiset Descriptor) + (evs.filterMap Event.closed? : Multiset Descriptor) := by
      cases hx : x.closed? <;> simp [hx]
    calc held + ((x :: evs).flatMap Event.brings : Multiset Descriptor)
        = (held + x.brings) + (evs.flatMap Event.brings : Multiset Descriptor) := by
          rw [List.flatMap_cons, ← Multiset.coe_add, add_assoc]
      _ = (mid + (evs.flatMap Event.brings : Multiset Descriptor)) + (x.closed?.toList : Multiset Descriptor) := by
          rw [handle_balance hmid, add_right_comm]
      _ = held' + ((x :: evs).filterMap Event.closed? : Multiset Descriptor) := by
          rw [ih h, hclosed, add_assoc, add_comm (evs.filterMap Event.closed? : Multiset Descriptor)]

/-- behind a log that leaves nothing in hand, every descriptor has been closed as often as it was brought -/
theorem brought_eq_closed (h : inHand 0 evs = some 0) :
    (evs.flatMap Event.brings : Multiset Descriptor) = (evs.filterMap Event.closed? : Multiset Descriptor) := by
  have hbalance := inHand_balance h
  rwa [Multiset.zero_add, Multiset.zero_add] at hbalance

end LineShell
