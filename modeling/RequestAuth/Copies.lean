namespace RequestAuth

/-- Something at work, and copies of it that are set aside. -/
structure Copies (α : Type) where
  current : α
  others : List α

namespace Copies

variable {α β : Type}

def one (a : α) : Copies α := ⟨a, []⟩

def copy (copies : Copies α) : Copies α :=
  { copies with others := copies.current :: copies.others }

/-- Goes on with the one at a place among those set aside, if there is one, and sets the present one
aside for it. -/
def turnTo (copies : Copies α) (place : Nat) : Copies α :=
  match copies.others[place]? with
  | none => copies
  | some a => ⟨a, copies.others.set place copies.current⟩

def modify (f : α → α) (copies : Copies α) : Copies α :=
  { copies with current := f copies.current }

def map (f : α → β) (copies : Copies α) : Copies β :=
  ⟨f copies.current, copies.others.map f⟩

def toList (copies : Copies α) : List α := copies.current :: copies.others

theorem map_turnTo (f : α → β) (copies : Copies α) (place : Nat) :
    (copies.turnTo place).map f = (copies.map f).turnTo place := by
  simp only [turnTo, map, List.getElem?_map]
  cases copies.others[place]? with
  | none => rfl
  | some a => simp only [Option.map_some, List.map_set]

theorem mem_of_mem_copy {copies : Copies α} {a : α} (h : a ∈ copies.copy.toList) :
    a ∈ copies.toList := by
  simpa [copy, toList] using h

theorem mem_of_mem_turnTo {copies : Copies α} {place : Nat} {a : α}
    (h : a ∈ (copies.turnTo place).toList) : a ∈ copies.toList := by
  rw [turnTo] at h
  cases hp : copies.others[place]? with
  | none => rwa [hp] at h
  | some other =>
    rw [hp] at h
    rcases List.mem_cons.1 h with rfl | h
    · exact List.mem_cons_of_mem _ (List.mem_of_getElem? hp)
    · rcases List.mem_or_eq_of_mem_set h with h | rfl
      · exact List.mem_cons_of_mem _ h
      · exact List.mem_cons_self

end Copies

end RequestAuth
