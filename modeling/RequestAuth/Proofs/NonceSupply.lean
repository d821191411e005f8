import Mathlib.Data.List.Count
import RequestAuth.Proofs.NonceDraw

namespace RequestAuth

inductive NonceSource.Plan.Comes : NonceSource.Plan → List String → String → Prop
  | give (text : String) : Comes (.give text) [] text
  | ask {place : Option ℕ} {next : String → Plan} {answer : String} {answers : List String}
      {text : String} (rest : Comes (next answer) answers text) :
      Comes (.ask place next) (answer :: answers) text

structure Supply where
  randoms : ℕ → Random
  randomUsed : ℕ
  sequence : ℕ
  sources : List NonceSource

inductive Supply.Use
  | draw (place : Option ℕ)
  | add (source : NonceSource)
  | rest

namespace Host

open NonceSource

def supply (host : Host) : Supply :=
  ⟨host.randoms, host.randomUsed, host.sequence, host.sources⟩

def nonce? (host : Host) : Supply.Use → Option String
  | .draw place => some (host.draw place).nonce
  | .add _ | .rest => none

def served (host : Host) : Supply.Use → Host
  | .draw place => (host.draw place).host
  | .add source => host.addSource source
  | .rest => host

/-- Text number `j` of a source: a random part and the number of the nonce, or what a source from
outside comes to, which has heard the answers from then on. -/
inductive Gives (host after : Host) : Option ℕ → ℕ → String → Prop
  | system : Gives host after none host.randomUsed
      (Nonce.compose (host.randoms host.randomUsed).toBytes host.sequence)
  | seeded {p j : ℕ} {seed : ChaCha20.Key} (source : host.sources[p]? = some (.seeded seed j)) :
      Gives host after (some p) j (Nonce.compose (seededPart seed j) host.sequence)
  | custom {p j : ℕ} {plan : ℕ → List String → Plan} {heard answers : List String} {text : String}
      (source : host.sources[p]? = some (.custom plan j heard))
      (comes : (plan j heard).Comes answers text)
      (hears : after.sources[p]? = some (.custom plan (j + 1) (heard ++ answers))) :
      Gives host after (some p) j text

section Sources

variable {host : Host} {bound p : ℕ}

theorem getElem?_sources_advance_of_ne (h : bound ≠ p) :
    (host.advance bound).sources[p]? = host.sources[p]? :=
  List.getElem?_modify_ne _ _ h

theorem getElem?_sources_hear_of_ne (h : bound ≠ p) (text : String) :
    (host.hear bound text).sources[p]? = host.sources[p]? :=
  List.getElem?_modify_ne _ _ h

theorem getElem?_sources_carryOut {answer : Option ℕ → Host → Drawn} (h : bound < p)
    (ha : ∀ place host, (answer place host).host.sources[p]? = host.sources[p]?) (plan : Plan)
    (host : Host) :
    (carryOut answer bound plan host).host.sources[p]? = host.sources[p]? := by
  induction plan generalizing host with
  | give text => rfl
  | ask place next ih =>
    rw [carryOut, ih, getElem?_sources_hear_of_ne h.ne, ha]

theorem getElem?_sources_drawBelow (h : bound ≤ p) (place : Option ℕ) (host : Host) :
    (drawBelow bound place host).host.sources[p]? = host.sources[p]? := by
  induction bound generalizing place host with
  | zero => rfl
  | succ bound ih =>
    have hb : bound < p := h
    rw [drawBelow]
    split
    · split
      · rfl
      · exact getElem?_sources_advance_of_ne hb.ne
      · rw [getElem?_sources_carryOut hb (ih hb.le), getElem?_sources_advance_of_ne hb.ne]
    · exact ih hb.le place host

theorem exists_comes_carryOut {plan : ℕ → List String → Plan} {j : ℕ} {heard : List String}
    (h : host.sources[bound]? = some (.custom plan j heard)) (rest : Plan) :
    ∃ answers, rest.Comes answers (carryOut (drawBelow bound) bound rest host).nonce ∧
      (carryOut (drawBelow bound) bound rest host).host.sources[bound]? =
        some (.custom plan j (heard ++ answers)) := by
  induction rest generalizing host heard with
  | give text => exact ⟨[], .give text, by rw [List.append_nil]; exact h⟩
  | ask place next ih =>
    let drawn := drawBelow bound place host
    have hs : (drawn.host.hear bound drawn.nonce).sources[bound]? =
        some (.custom plan j (heard ++ [drawn.nonce])) := by
      rw [hear, List.getElem?_modify_eq, getElem?_sources_drawBelow le_rfl, h]
      rfl
    obtain ⟨answers, hc, ha⟩ := ih drawn.nonce hs
    refine ⟨drawn.nonce :: answers, .ask hc, ?_⟩
    rw [List.append_assoc] at ha
    exact ha

end Sources

variable {host : Host}

theorem gives_draw (host : Host) (place : Option ℕ) :
    host.Gives (host.draw place).host (host.origin place) (host.drawn (host.origin place))
      (host.draw place).nonce := by
  cases ho : host.origin place with
  | none =>
    rw [draw_of_origin_eq_none ho]
    exact .system
  | some p =>
    obtain ⟨rfl, hp⟩ : place = some p ∧ p < host.sources.length := by
      simpa [origin, Option.filter_eq_some_iff] using ho
    have hs := List.getElem?_eq_getElem hp
    rw [drawn, hs, Option.map_some, Option.getD_some]
    cases he : host.sources[p] with
    | seeded seed j =>
      rw [he] at hs
      rw [draw_seeded hs]
      exact .seeded hs
    | custom plan j heard =>
      rw [he] at hs
      have hadvance : (host.advance p).sources[p]? = some (.custom plan (j + 1) heard) := by
        rw [advance, List.getElem?_modify_eq, hs]
        rfl
      have hd : host.draw (some p) = carryOut (drawBelow p) p (plan j heard) (host.advance p) := by
        rw [draw_some hp, drawBelow, if_pos rfl, hs]
      obtain ⟨answers, hc, ha⟩ := exists_comes_carryOut hadvance (plan j heard)
      rw [hd]
      exact .custom hs hc ha

theorem Gives.congr {after after' : Host} {origin : Option ℕ} {j : ℕ} {text : String}
    (h : host.Gives after origin j text) (hs : after'.supply = after.supply) :
    host.Gives after' origin j text := by
  cases h with
  | system => exact .system
  | seeded source => exact .seeded source
  | custom source comes hears =>
    have ha : after'.sources = after.sources := congrArg Supply.sources hs
    exact .custom source comes (ha ▸ hears)

theorem drawn_congr {other : Host} (h : other.supply = host.supply) (origin : Option ℕ) :
    other.drawn origin = host.drawn origin := by
  obtain ⟨-, hr, -, hs⟩ := Supply.mk.inj h
  cases origin with
  | none => exact hr
  | some p => rw [drawn, drawn, hs]

def Has (host : Host) (origin : Option ℕ) : Prop := ∀ p, origin = some p → p < host.sources.length

theorem has_origin (host : Host) (place : Option ℕ) : host.Has (host.origin place) := by
  intro p hp
  simpa using (Option.filter_eq_some_iff.1 hp).2

end Host

/-- A run as its hosts see it: how they stand before each step, and what it does with the supply. -/
structure History where
  host : ℕ → Host
  use : ℕ → Supply.Use

namespace History

variable (h : History)

def origin? (i : ℕ) : Option (Option ℕ) :=
  match h.use i with
  | .draw place => some ((h.host i).origin place)
  | .add _ | .rest => none

/-- The draw of a step, told by the source and by how many it has handed out before. -/
def draw? (i : ℕ) : Option (Option ℕ × ℕ) :=
  (h.origin? i).map (fun origin ↦ (origin, (h.host i).drawn origin))

def asks (i : ℕ) : List (Option ℕ) :=
  match h.use i with
  | .draw place => (h.host i).asks place
  | .add _ | .rest => []

def attempts (origin : Option ℕ) (i n : ℕ) : ℕ :=
  (List.range' i n).countP (fun k ↦ h.origin? k = some origin)

def asked (origin : Option ℕ) (i n : ℕ) : ℕ := ((List.range' i n).flatMap h.asks).count origin

/-- In a run a step does with the supply just what its use says, and shows of a nonce only the text
that it draws itself. A draw takes one text of its source and no two steps share a draw. A source has
handed out one text for each attempt on it since it was there, and for each question to it. -/
structure Accounts (shows : ℕ → Option String → Prop) : Prop where
  supply : ∀ i, (h.host (i + 1)).supply = ((h.host i).served (h.use i)).supply
  nonce : ∀ i nonce origin j, shows i nonce → h.draw? i = some (origin, j) →
    ∃ text, nonce = some text ∧ (h.host i).Gives (h.host (i + 1)) origin j text
  unsigned : ∀ i nonce, shows i nonce → h.draw? i = none → nonce = none
  one : ∀ i origin, h.origin? i = some origin →
    (h.host (i + 1)).drawn origin = (h.host i).drawn origin + 1
  once : ∀ i j draw, h.draw? i = some draw → h.draw? j = some draw → i = j
  count : ∀ origin i n, (h.host i).Has origin →
    (h.host (i + n)).drawn origin =
      (h.host i).drawn origin + h.attempts origin i n + h.asked origin i n
  asking : ∀ i, h.asks i ≠ [] → ∃ p plan j heard other next, h.origin? i = some (some p) ∧
    (h.host i).sources[p]? = some (.custom plan j heard) ∧
      plan j heard = NonceSource.Plan.ask other next

variable {h}

theorem origin?_of_draw {i : ℕ} {place : Option ℕ} (hu : h.use i = .draw place) :
    h.origin? i = some ((h.host i).origin place) := by
  rw [origin?, hu]

theorem origin?_eq_some {i : ℕ} {origin : Option ℕ} (ho : h.origin? i = some origin) :
    ∃ place, h.use i = .draw place ∧ (h.host i).origin place = origin := by
  rw [origin?] at ho
  split at ho
  · next place hu => exact ⟨place, hu, Option.some.inj ho⟩
  · cases ho
  · cases ho

section Counts

variable (hs : ∀ i, (h.host (i + 1)).supply = ((h.host i).served (h.use i)).supply)
  {origin : Option ℕ} {i : ℕ}

include hs

theorem has_succ (ho : (h.host i).Has origin) : (h.host (i + 1)).Has origin := by
  intro p hp
  have hl : (h.host (i + 1)).sources = ((h.host i).served (h.use i)).sources :=
    congrArg Supply.sources (hs i)
  rw [hl]
  have hlt := ho p hp
  cases h.use i with
  | draw place => rwa [Host.served, Host.length_sources_draw]
  | add source =>
    rw [Host.served, Host.addSource, List.length_append]
    exact Nat.lt_add_right _ hlt
  | rest => exact hlt

theorem drawn_succ (ho : (h.host i).Has origin) :
    (h.host (i + 1)).drawn origin =
      (h.host i).drawn origin + (if h.origin? i = some origin then 1 else 0) +
        (h.asks i).count origin := by
  rw [Host.drawn_congr (hs i), origin?, asks]
  cases hu : h.use i with
  | draw place =>
    rw [Host.served, Host.drawn_draw, ((h.host i).takes_taken place).eq, List.count_cons]
    simp only [beq_iff_eq, Option.some.injEq]
    omega
  | add source =>
    rw [Host.served]
    cases origin with
    | none => rfl
    | some p =>
      rw [Host.drawn, Host.drawn, Host.addSource, List.getElem?_append_left (ho p rfl)]
      rfl
  | rest => rfl

theorem drawn_add (ho : (h.host i).Has origin) (n : ℕ) :
    (h.host (i + n)).Has origin ∧
      (h.host (i + n)).drawn origin =
        (h.host i).drawn origin + h.attempts origin i n + h.asked origin i n := by
  induction n with
  | zero => exact ⟨ho, rfl⟩
  | succ n ih =>
    obtain ⟨hn, hd⟩ := ih
    refine ⟨has_succ hs hn, ?_⟩
    rw [← Nat.add_assoc, drawn_succ hs hn, hd, attempts, attempts, asked, asked,
      List.range'_1_concat, List.countP_append, List.flatMap_append, List.count_append]
    simp only [List.countP_singleton, List.flatMap_cons, List.flatMap_nil, List.append_nil,
      decide_eq_true_eq]
    omega

theorem drawn_one (ho : h.origin? i = some origin) :
    (h.host (i + 1)).drawn origin = (h.host i).drawn origin + 1 := by
  obtain ⟨place, hu, rfl⟩ := origin?_eq_some ho
  have ha : (h.asks i).count ((h.host i).origin place) = 0 := by
    rw [asks, hu]
    exact List.count_eq_zero_of_not_mem ((h.host i).takes_taken place).notMem
  rw [drawn_succ hs ((h.host i).has_origin place), if_pos ho, ha]

theorem drawn_lt {j : ℕ} (ho : h.origin? i = some origin) (hij : i < j) :
    (h.host i).drawn origin < (h.host j).drawn origin := by
  obtain ⟨place, hu, hp⟩ := origin?_eq_some ho
  have hhas : (h.host i).Has origin := hp ▸ (h.host i).has_origin place
  have hle : i + 1 ≤ j := hij
  obtain ⟨n, rfl⟩ := Nat.exists_eq_add_of_le hle
  have hone := drawn_one hs ho
  have hlater := (drawn_add hs (has_succ hs hhas) n).2
  omega

theorem eq_of_draw?_eq {j : ℕ} {draw : Option ℕ × ℕ} (hi : h.draw? i = some draw)
    (hj : h.draw? j = some draw) : i = j := by
  obtain ⟨origin, ho, rfl⟩ := Option.map_eq_some_iff.1 hi
  obtain ⟨other, ho', he⟩ := Option.map_eq_some_iff.1 hj
  obtain ⟨rfl, hd⟩ := Prod.mk.inj he
  rcases Nat.lt_trichotomy i j with hij | rfl | hji
  · exact absurd hd.symm (drawn_lt hs ho hij).ne
  · rfl
  · exact absurd hd (drawn_lt hs ho' hji).ne

end Counts

/-- A run is accounted for if its steps do with the supply what their uses say, and show of nonces
what they draw. -/
theorem accounts_of {shows : ℕ → Option String → Prop}
    (hs : ∀ i, (h.host (i + 1)).supply = ((h.host i).served (h.use i)).supply)
    (hn : ∀ i nonce, shows i nonce → nonce = (h.host i).nonce? (h.use i)) :
    h.Accounts shows where
  supply := hs
  nonce i nonce origin j hshow hd := by
    obtain ⟨own, ho, he⟩ := Option.map_eq_some_iff.1 hd
    obtain ⟨place, hu, hp⟩ := origin?_eq_some ho
    cases he
    subst hp
    refine ⟨((h.host i).draw place).nonce, ?_, ((h.host i).gives_draw place).congr ?_⟩
    · rw [hn i nonce hshow, hu, Host.nonce?]
    · rw [hs, hu, Host.served]
  unsigned i nonce hshow hd := by
    rw [hn i nonce hshow]
    cases hu : h.use i with
    | draw place =>
      rw [draw?, origin?_of_draw hu] at hd
      cases hd
    | add source => rfl
    | rest => rfl
  one _ _ := drawn_one hs
  once _ _ _ := eq_of_draw?_eq hs
  count _ _ n ho := (drawn_add hs ho n).2
  asking i hne := by
    rw [asks] at hne
    split at hne
    · next place hu =>
      obtain ⟨p, plan, j, heard, other, next, ho, hp⟩ :=
        ((h.host i).takes_taken place).asking hne
      exact ⟨p, plan, j, heard, other, next, by rw [origin?_of_draw hu, ho], hp⟩
    · exact absurd rfl hne
    · exact absurd rfl hne

section OfRun

variable {α : Type}

def ofRun (steps : List α) (host : ℕ → Host) (use : ℕ → α → Supply.Use) : History where
  host := host
  use i := steps[i]?.elim .rest (use i)

theorem use_ofRun {steps : List α} {i : ℕ} {step : α} (hi : steps[i]? = some step)
    (host : ℕ → Host) (use : ℕ → α → Supply.Use) : (ofRun steps host use).use i = use i step := by
  dsimp only [ofRun]
  rw [hi, Option.elim]

theorem accounts_ofRun {steps : List α} {host : ℕ → Host} {use : ℕ → α → Supply.Use}
    {shows : ℕ → Option String → Prop}
    (hstep : ∀ i step, steps[i]? = some step →
      (host (i + 1)).supply = ((host i).served (use i step)).supply)
    (hend : ∀ i, steps[i]? = none → host (i + 1) = host i)
    (hshows : ∀ i nonce, shows i nonce →
      ∃ step, steps[i]? = some step ∧ nonce = (host i).nonce? (use i step)) :
    (ofRun steps host use).Accounts shows := by
  refine accounts_of (fun i ↦ ?_) (fun i nonce hn ↦ ?_)
  · cases hi : steps[i]? with
    | none =>
      dsimp only [ofRun]
      rw [hi, hend i hi, Option.elim, Host.served]
    | some step =>
      rw [use_ofRun hi]
      exact hstep i step hi
  · obtain ⟨step, hi, hnonce⟩ := hshows i nonce hn
    rw [use_ofRun hi]
    exact hnonce

end OfRun

end History

end RequestAuth
