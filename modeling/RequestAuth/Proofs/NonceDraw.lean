import Mathlib.Order.Nat
import RequestAuth.Host

namespace RequestAuth

namespace Host

open NonceSource

/-- The source that a place stands for. Where there is none it is the system's. -/
def origin (host : Host) (place : Option ℕ) : Option ℕ := place.filter (· < host.sources.length)

def drawn (host : Host) : Option ℕ → ℕ
  | none => host.randomUsed
  | some place => (host.sources[place]?.map NonceSource.drawn).getD 0

section Taken

variable (answer : Option ℕ → Host → Drawn) (taken : Option ℕ → Host → List (Option ℕ)) (place : ℕ)

def takenBy : Plan → Host → List (Option ℕ)
  | .give _, _ => []
  | .ask other next, host =>
    let drawn := answer other host
    taken other host ++ takenBy (next drawn.nonce) (drawn.host.hear place drawn.nonce)

end Taken

def takenBelow : ℕ → Option ℕ → Host → List (Option ℕ)
  | 0, _, _ => [none]
  | bound + 1, place, host =>
    if place = some bound then
      match host.sources[bound]? with
      | none => [none]
      | some (.seeded _ _) => [some bound]
      | some (.custom plan drawn heard) =>
        some bound ::
          takenBy (drawBelow bound) (takenBelow bound) bound (plan drawn heard) (host.advance bound)
    else takenBelow bound place host

/-- The sources that hand out a text for one draw. A source from outside is there with all that it
asks for a text, and with those that they ask. -/
def taken (host : Host) (place : Option ℕ) : List (Option ℕ) :=
  takenBelow host.sources.length place host

section Sources

variable {host : Host}

@[simp] theorem length_sources_advance (host : Host) (place : ℕ) :
    (host.advance place).sources.length = host.sources.length :=
  List.length_modify _ _ _

@[simp] theorem length_sources_hear (host : Host) (place : ℕ) (text : String) :
    (host.hear place text).sources.length = host.sources.length :=
  List.length_modify _ _ _

theorem drawn_advance {place : ℕ} {source : NonceSource} (h : host.sources[place]? = some source)
    (other : Option ℕ) :
    (host.advance place).drawn other = host.drawn other + [some place].count other := by
  cases other with
  | none => rfl
  | some other =>
    rw [drawn, drawn, advance, List.getElem?_modify]
    by_cases ho : place = other
    · subst ho
      rw [h]
      cases source <;> simp [NonceSource.advance, NonceSource.drawn]
    · simp [ho]

theorem drawn_hear (host : Host) (place : ℕ) (text : String) (other : Option ℕ) :
    (host.hear place text).drawn other = host.drawn other := by
  cases other with
  | none => rfl
  | some other =>
    rw [drawn, drawn, hear, List.getElem?_modify]
    cases host.sources[other]? with
    | none => rfl
    | some source =>
      split <;> cases source <;> rfl

end Sources

section Induction

variable {P : Host → List (Option ℕ) → Host → Prop}

theorem carryOut_induction {answer : Option ℕ → Host → Drawn}
    {taken : Option ℕ → Host → List (Option ℕ)} (refl : ∀ host, P host [] host)
    (trans : ∀ {a b c l m}, P a l b → P b m c → P a (l ++ m) c)
    (hear : ∀ host place text, P host [] (host.hear place text))
    (answers : ∀ place host, P host (taken place host) (answer place host).host) (place : ℕ)
    (plan : Plan) (host : Host) :
    P host (takenBy answer taken place plan host) (carryOut answer place plan host).host := by
  induction plan generalizing host with
  | give text => exact refl host
  | ask other next ih =>
    have h := trans (answers other host) (hear _ place (answer other host).nonce)
    rw [List.append_nil] at h
    exact trans h (ih _ _)

theorem draw_induction (refl : ∀ host, P host [] host)
    (trans : ∀ {a b c l m}, P a l b → P b m c → P a (l ++ m) c)
    (hear : ∀ host place text, P host [] (host.hear place text))
    (system : ∀ host, P host [none] host.drawSystem.host)
    (seeded : ∀ host place seed drawn, host.sources[place]? = some (.seeded seed drawn) →
      P host [some place] ((host.advance place).number (seededPart seed drawn)).host)
    (custom : ∀ host place plan drawn heard,
      host.sources[place]? = some (.custom plan drawn heard) →
      P host [some place] (host.advance place))
    (host : Host) (place : Option ℕ) : P host (host.taken place) (host.draw place).host := by
  rw [taken, draw]
  generalize host.sources.length = bound
  induction bound generalizing place host with
  | zero => exact system host
  | succ bound ih =>
    rw [takenBelow, drawBelow]
    split
    · cases hs : host.sources[bound]? with
      | none => exact system host
      | some source =>
        cases source with
        | seeded seed drawn => exact seeded host bound seed drawn hs
        | custom plan drawn heard =>
          exact trans (custom host bound plan drawn heard hs)
            (carryOut_induction refl trans hear (fun place host ↦ ih host place) bound _ _)
    · exact ih host place

end Induction

section Draw

variable (host : Host) (place : Option ℕ)

theorem log_draw : (host.draw place).host.log = host.log := by
  refine draw_induction (P := fun a _ b ↦ b.log = a.log) (fun _ ↦ rfl) (fun h h' ↦ h'.trans h)
    ?_ ?_ ?_ ?_ host place <;> intros <;> rfl

theorem length_sources_draw :
    (host.draw place).host.sources.length = host.sources.length := by
  refine draw_induction (P := fun a _ b ↦ b.sources.length = a.sources.length) (fun _ ↦ rfl)
    (fun h h' ↦ h'.trans h) ?_ ?_ ?_ ?_ host place <;> intros <;> simp [number, drawSystem]

theorem drawn_draw (other : Option ℕ) :
    (host.draw place).host.drawn other = host.drawn other + (host.taken place).count other := by
  refine draw_induction (P := fun a l b ↦ b.drawn other = a.drawn other + l.count other)
    (fun _ ↦ rfl) (fun h h' ↦ ?_) (fun host place text ↦ host.drawn_hear place text other)
    (fun host ↦ ?_) (fun host place seed drawn hs ↦ ?_) (fun host place plan drawn heard hs ↦ ?_)
    host place
  · rw [h', h, List.count_append, Nat.add_assoc]
  · cases other <;> rfl
  · exact drawn_advance hs other
  · exact drawn_advance hs other

end Draw

section Place

variable {host : Host} {place : Option ℕ} {p : ℕ}

theorem drawBelow_of_forall_le {bound : ℕ} (h : ∀ p, place = some p → bound ≤ p) :
    drawBelow bound place host = host.drawSystem := by
  induction bound with
  | zero => rfl
  | succ bound ih =>
    rw [drawBelow, if_neg (fun hp ↦ absurd (h bound hp) (by omega))]
    exact ih (fun p hp ↦ (Nat.le_succ bound).trans (h p hp))

theorem drawBelow_of_lt {bound : ℕ} (h : p < bound) :
    drawBelow bound (some p) host = drawBelow (p + 1) (some p) host := by
  induction bound with
  | zero => cases h
  | succ bound ih =>
    rcases Nat.lt_succ_iff_lt_or_eq.1 h with hlt | rfl
    · rw [drawBelow, if_neg (by simpa using hlt.ne), ih hlt]
    · rfl

theorem origin_eq_none_iff :
    host.origin place = none ↔ ∀ p, place = some p → host.sources.length ≤ p := by
  simp only [origin, Option.filter_eq_none_iff, decide_eq_true_eq, Nat.not_lt]

theorem draw_of_origin_eq_none (h : host.origin place = none) :
    host.draw place = host.drawSystem :=
  drawBelow_of_forall_le (origin_eq_none_iff.1 h)

theorem draw_none (host : Host) : host.draw none = host.drawSystem :=
  draw_of_origin_eq_none rfl

theorem draw_some (h : p < host.sources.length) :
    host.draw (some p) = drawBelow (p + 1) (some p) host :=
  drawBelow_of_lt h

theorem draw_seeded {seed : ChaCha20.Key} {drawn : ℕ}
    (h : host.sources[p]? = some (.seeded seed drawn)) :
    host.draw (some p) = (host.advance p).number (seededPart seed drawn) := by
  rw [draw_some (List.getElem?_eq_some_iff.1 h).1, drawBelow, if_pos rfl, h]

end Place

section Asks

variable {host : Host}

theorem lt_of_mem_takenBy {answer : Option ℕ → Host → Drawn}
    {taken : Option ℕ → Host → List (Option ℕ)} {bound : ℕ}
    (h : ∀ place host p, some p ∈ taken place host → p < bound) {place : ℕ} {plan : Plan} {p : ℕ}
    (hp : some p ∈ takenBy answer taken place plan host) : p < bound := by
  induction plan generalizing host with
  | give text => cases hp
  | ask other next ih =>
    rcases List.mem_append.1 hp with hp | hp
    · exact h _ _ _ hp
    · exact ih _ hp

theorem lt_of_mem_takenBelow {bound : ℕ} {place : Option ℕ} {p : ℕ}
    (h : some p ∈ takenBelow bound place host) : p < bound := by
  induction bound generalizing host place p with
  | zero => simp [takenBelow] at h
  | succ bound ih =>
    rw [takenBelow] at h
    split at h
    · split at h
      · simp at h
      · obtain rfl : p = bound := by simpa using h
        exact Nat.lt_succ_self p
      · rcases List.mem_cons.1 h with h | h
        · exact (Option.some.inj h).trans_lt (Nat.lt_succ_self bound)
        · exact (lt_of_mem_takenBy (fun _ _ _ ↦ ih) h).trans (Nat.lt_succ_self bound)
    · exact (ih h).trans (Nat.lt_succ_self bound)

/-- One text comes from the source itself and none of the others does. There are others only if the
source is one from outside that asks for them. -/
structure Takes (host : Host) (origin : Option ℕ) (taken asks : List (Option ℕ)) : Prop where
  eq : taken = origin :: asks
  notMem : origin ∉ asks
  asking : asks ≠ [] → ∃ p plan j heard other next, origin = some p ∧
    host.sources[p]? = some (.custom plan j heard) ∧ plan j heard = Plan.ask other next

theorem Takes.alone (host : Host) (origin : Option ℕ) : host.Takes origin [origin] [] :=
  ⟨rfl, List.not_mem_nil, fun h ↦ absurd rfl h⟩

theorem exists_takes_takenBelow {bound : ℕ} (hb : bound ≤ host.sources.length)
    (place : Option ℕ) :
    ∃ asks, host.Takes (place.filter (· < bound)) (takenBelow bound place host) asks := by
  induction bound generalizing place with
  | zero =>
    have hf : place.filter (· < 0) = none := by cases place <;> rfl
    rw [hf]
    exact ⟨[], .alone host none⟩
  | succ bound ih =>
    rw [takenBelow]
    split
    · next hp =>
      subst hp
      have hf : (some bound).filter (· < bound + 1) = some bound := by simp
      have hs := List.getElem?_eq_getElem hb
      rw [hf, hs]
      cases he : host.sources[bound] with
      | seeded seed drawn => exact ⟨[], .alone host _⟩
      | custom plan drawn heard =>
        rw [he] at hs
        refine ⟨_, rfl, fun h ↦ ?_, fun hne ↦ ?_⟩
        · exact lt_irrefl bound (lt_of_mem_takenBy (fun _ _ _ ↦ lt_of_mem_takenBelow) h)
        · cases hplan : plan drawn heard with
          | give text => exact absurd (by rw [hplan, takenBy]) hne
          | ask other next => exact ⟨bound, plan, drawn, heard, other, next, rfl, hs, hplan⟩
    · next hp =>
      have hf : place.filter (· < bound + 1) = place.filter (· < bound) := by
        cases place with
        | none => rfl
        | some p =>
          have hne : p ≠ bound := fun h ↦ hp (congrArg some h)
          have hiff : p < bound + 1 ↔ p < bound := by omega
          simp only [Option.filter, hiff]
      rw [hf]
      exact ih (Nat.le_of_succ_le hb) place

end Asks

def asks (host : Host) (place : Option ℕ) : List (Option ℕ) := (host.taken place).tail

theorem takes_taken (host : Host) (place : Option ℕ) :
    host.Takes (host.origin place) (host.taken place) (host.asks place) := by
  obtain ⟨asks, h⟩ := exists_takes_takenBelow le_rfl place
  have ha : host.asks place = asks := congrArg List.tail h.eq
  rw [ha]
  exact h

end Host

end RequestAuth
