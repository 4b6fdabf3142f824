-- SUMMARY: The stack as a list whose head is the top.
import StackMachine.Machine

/-!
# The stack from the top

The values of a stack as a list whose head is the top. Pops and pushes are then the list's own
destructor and constructor, and an instruction is evaluated by looking at the head of the list. The
three ways to pop differ only in the kind of value that they take.
-/

namespace StackMachine

variable {α β : Type}

namespace Stack

/-- The values from top to bottom. -/
def topDown (s : Stack) : List Value :=
  s.values.toList.reverse

/-- The stack with the given values from top to bottom. -/
def ofTop (values : List Value) (limit : Nat) : Stack :=
  { values := values.reverse.toArray, limit }

@[simp] theorem ofTop_topDown (s : Stack) : ofTop s.topDown s.limit = s := by
  simp [ofTop, topDown]

@[simp] theorem topDown_ofTop (values : List Value) (limit : Nat) :
    (ofTop values limit).topDown = values := by
  simp [ofTop, topDown]

@[simp] theorem length_topDown (s : Stack) : s.topDown.length = s.size := by
  simp [topDown, size]

@[simp] theorem size_ofTop (values : List Value) (limit : Nat) :
    (ofTop values limit).size = values.length := by
  simp [ofTop, size]

@[simp] theorem limit_ofTop (values : List Value) (limit : Nat) :
    (ofTop values limit).limit = limit := rfl

/-- A value on top is the last one from the bottom. -/
theorem ofTop_cons_topDown (v : Value) (s : Stack) :
    ofTop (v :: s.topDown) s.limit = { s with values := s.values.push v } := by
  have hvalues : (s.values.toList ++ [v]).toArray = s.values.push v := by
    apply Array.toList_inj.1
    simp
  simp [ofTop, topDown, hvalues]

/-- Values that are first from the top are last from the bottom. -/
theorem values_of_topDown_append {s s' : Stack} {taken : List Value}
    (h : s.topDown = taken ++ s'.topDown) : s.values = s'.values ++ taken.reverse.toArray := by
  have hrev : s.topDown.reverse = s'.topDown.reverse ++ taken.reverse := by
    rw [h, List.reverse_append]
  apply Array.toList_inj.1
  simpa [topDown] using hrev

theorem push_of_lt {v : Value} {values : List Value} {limit : Nat} (h : values.length < limit) :
    push v (ofTop values limit) = .ok () (ofTop (v :: values) limit) := by
  have hlt : (ofTop values limit).size < (ofTop values limit).limit := by simpa using h
  simp only [push, hlt, if_true]
  simp [ofTop]

theorem push_of_ge {v : Value} {values : List Value} {limit : Nat} (h : limit ≤ values.length) :
    push v (ofTop values limit) = .error (.stackOverflow limit) (ofTop values limit) := by
  have hge : ¬ (ofTop values limit).size < (ofTop values limit).limit := by simpa using h
  simp only [push, hge, if_false]
  rfl

/-! ## Pops -/

/-- An action that pops a value of the given kind, or one of any kind, and reads it. -/
structure Takes (kind : Option Tag) (wrap : α → Value) (action : Action α) : Prop where
  empty (limit : Nat) : action (ofTop [] limit) = .error .stackUnderflow (ofTop [] limit)
  fits (a : α) (rest : List Value) (limit : Nat) :
    action (ofTop (wrap a :: rest) limit) = .ok a (ofTop rest limit)
  unfit (tag : Tag) (hkind : kind = some tag) (v : Value) (hv : v.tag ≠ tag) (rest : List Value)
    (limit : Nat) : action (ofTop (v :: rest) limit) = .error (mismatch tag v) (ofTop rest limit)
  reads (v : Value) (hv : ∀ tag, kind = some tag → v.tag = tag) : ∃ a, v = wrap a

/-- A pop finds no value, one that it reads, or one of the wrong kind. -/
theorem Takes.cases {kind : Option Tag} {wrap : α → Value} {action : Action α}
    (h : Takes kind wrap action) (values : List Value) :
    values = [] ∨
      (∃ a rest, (∀ tag, kind = some tag → (wrap a).tag = tag) ∧ values = wrap a :: rest) ∨
      ∃ tag v rest, kind = some tag ∧ v.tag ≠ tag ∧ values = v :: rest := by
  cases values with
  | nil => exact .inl rfl
  | cons v rest =>
    by_cases hv : ∀ tag, kind = some tag → v.tag = tag
    · obtain ⟨a, rfl⟩ := h.reads v hv
      exact .inr (.inl ⟨a, rest, hv, rfl⟩)
    · obtain ⟨tag, hkind, hne⟩ : ∃ tag, kind = some tag ∧ v.tag ≠ tag := by simpa using hv
      exact .inr (.inr ⟨tag, v, rest, hkind, hne, rfl⟩)

theorem pop_cons (v : Value) (rest : List Value) (limit : Nat) :
    pop (ofTop (v :: rest) limit) = .ok v (ofTop rest limit) := by
  simp [pop, ofTop]

theorem takes_pop : Takes none id pop where
  empty _ := rfl
  fits v rest limit := pop_cons v rest limit
  unfit _ hkind := nomatch hkind
  reads v _ := ⟨v, rfl⟩

theorem takes_popInteger : Takes (some .integer) .integer popInteger where
  empty _ := rfl
  fits n rest limit := by
    simp only [popInteger, bind, EStateM.bind, pop_cons]
    rfl
  unfit tag hkind v hv rest limit := by
    cases hkind
    simp only [popInteger, bind, EStateM.bind, pop_cons]
    cases v with
    | integer n => exact absurd rfl hv
    | text s => rfl
    | boolean b => rfl
  reads v hv := by
    cases v with
    | integer n => exact ⟨n, rfl⟩
    | text s => cases hv _ rfl
    | boolean b => cases hv _ rfl

theorem takes_popBoolean : Takes (some .boolean) .boolean popBoolean where
  empty _ := rfl
  fits b rest limit := by
    simp only [popBoolean, bind, EStateM.bind, pop_cons]
    rfl
  unfit tag hkind v hv rest limit := by
    cases hkind
    simp only [popBoolean, bind, EStateM.bind, pop_cons]
    cases v with
    | integer n => rfl
    | text s => rfl
    | boolean b => exact absurd rfl hv
  reads v hv := by
    cases v with
    | integer n => cases hv _ rfl
    | text s => cases hv _ rfl
    | boolean b => exact ⟨b, rfl⟩

end Stack

/-! ## Machines -/

namespace Machine

/-- The machine with other values on its stack, given from top to bottom. -/
def withTop (m : Machine) (values : List Value) : Machine :=
  { m with stack := Stack.ofTop values m.stack.limit }

@[simp] theorem withTop_topDown (m : Machine) : m.withTop m.stack.topDown = m := by
  simp [withTop]

theorem withTop_of_topDown {m : Machine} {values : List Value} (h : m.stack.topDown = values) :
    m.withTop values = m := by
  rw [← h, withTop_topDown]

@[simp] theorem topDown_withTop (m : Machine) (values : List Value) :
    (m.withTop values).stack.topDown = values := by
  simp [withTop]

@[simp] theorem size_withTop (m : Machine) (values : List Value) :
    (m.withTop values).stack.size = values.length := by
  simp [withTop]

@[simp] theorem limit_withTop (m : Machine) (values : List Value) :
    (m.withTop values).stack.limit = m.stack.limit := rfl

variable {kind : Option Tag} {wrap : α → Value} {action : Stack.Action α} {f : α → Action β}

theorem takes_bind_empty (h : Stack.Takes kind wrap action) (m : Machine) :
    (onStack action >>= f) (m.withTop []) = .error .stackUnderflow (m.withTop []) := by
  simp only [bind, EStateM.bind, onStack, withTop, h.empty]

theorem takes_bind_fits (h : Stack.Takes kind wrap action) (m : Machine) (a : α)
    (rest : List Value) :
    (onStack action >>= f) (m.withTop (wrap a :: rest)) = f a (m.withTop rest) := by
  simp only [bind, EStateM.bind, onStack, withTop, h.fits]

theorem takes_bind_unfit {tag : Tag} (h : Stack.Takes (some tag) wrap action) (m : Machine)
    {v : Value} (hv : v.tag ≠ tag) (rest : List Value) :
    (onStack action >>= f) (m.withTop (v :: rest)) =
      .error (Stack.mismatch tag v) (m.withTop rest) := by
  simp only [bind, EStateM.bind, onStack, withTop, h.unfit tag rfl v hv]

theorem push_withTop_of_lt {m : Machine} {values : List Value} (v : Value)
    (h : values.length < m.stack.limit) :
    onStack (Stack.push v) (m.withTop values) = .ok () (m.withTop (v :: values)) := by
  simp only [onStack, withTop, Stack.push_of_lt h]

theorem push_withTop_of_ge {m : Machine} {values : List Value} (v : Value)
    (h : m.stack.limit ≤ values.length) :
    onStack (Stack.push v) (m.withTop values) =
      .error (.stackOverflow m.stack.limit) (m.withTop values) := by
  simp only [onStack, withTop, Stack.push_of_ge h]

end Machine

end StackMachine
