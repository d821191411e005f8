import RequestAuth.Proofs.Credential
import RequestAuth.Proofs.Encoding
import RequestAuth.Proofs.HeaderSet
import RequestAuth.Proofs.NonceDraw

namespace RequestAuth

open Http

namespace Nonce

/-- The text is a nonce of full length that ends in the number of its draw. -/
structure Carries (nonce : String) (n : ℕ) : Prop where
  length : nonce.toList.length = 64
  digits : ∀ c ∈ nonce.toList, c ∈ "0123456789abcdef".toList
  ending : Hex.numeral 16 (n % 2 ^ 64) <:+ nonce.toList

theorem numeral_mod (n : ℕ) : Hex.numeral 16 (n % 2 ^ 64) = Hex.encodeChars (Bytes.ofNat 8 n) := by
  rw [show 2 ^ 64 = 256 ^ 8 by norm_num, ← Bytes.ofNat_mod, Hex.encodeChars_ofNat]

theorem carries_compose {random : Bytes} (h : random.length = randomLength) (n : ℕ) :
    Carries (compose random n) n := by
  have hl : (compose random n).toList =
      Hex.encodeChars random ++ Hex.encodeChars (Bytes.ofNat 8 n) := by
    rw [compose, Hex.encode, String.toList_ofList, Hex.encodeChars_append]
  constructor
  · rw [hl, List.length_append, Hex.length_encodeChars, Hex.length_encodeChars, h,
      Bytes.length_ofNat]
    rfl
  · intro c hc
    rw [compose, Hex.encode, String.toList_ofList] at hc
    exact Hex.mem_of_mem_encodeChars hc
  · rw [hl, numeral_mod]
    exact List.suffix_append _ _

theorem mod_eq_of_numeral_eq {m n : ℕ}
    (h : Hex.numeral 16 (m % 2 ^ 64) = Hex.numeral 16 (n % 2 ^ 64)) :
    m % 2 ^ 64 = n % 2 ^ 64 := by
  rw [numeral_mod, numeral_mod] at h
  have hb : Bytes.ofNat 8 m = Bytes.ofNat 8 n := Hex.encode_injective (congrArg String.ofList h)
  have hn := congrArg Bytes.toNat hb
  rwa [Bytes.toNat_ofNat, Bytes.toNat_ofNat] at hn

theorem Carries.ne {a b : String} {m n : ℕ} (ha : Carries a m) (hb : Carries b n) (h : m < n)
    (hd : n < m + 2 ^ 64) : a ≠ b := by
  rintro rfl
  have hs : Hex.numeral 16 (m % 2 ^ 64) = Hex.numeral 16 (n % 2 ^ 64) := by
    obtain ⟨front, hf⟩ := ha.ending
    obtain ⟨front', hf'⟩ := hb.ending
    exact (List.append_inj' (hf.trans hf'.symm) (by simp only [Hex.length_numeral])).2
  have hm := mod_eq_of_numeral_eq hs
  omega

end Nonce

def NonceSource.IsSeeded : NonceSource → Prop
  | seeded _ _ => True
  | custom _ _ _ => False

namespace Host

/-- The place is that of a source which takes part in the numbering: the system's or a seeded one. -/
def IsNumbered (host : Host) (place : Option ℕ) : Prop :=
  ∀ p source, place = some p → host.sources[p]? = some source → source.IsSeeded

theorem draw_of_isNumbered {host : Host} {place : Option ℕ} (h : host.IsNumbered place) :
    host.origin place = none ∧ host.draw place = host.drawSystem ∨
      ∃ p seed drawn, place = some p ∧ host.sources[p]? = some (.seeded seed drawn) ∧
        host.draw place = (host.advance p).number (NonceSource.seededPart seed drawn) := by
  cases ho : host.origin place with
  | none => exact .inl ⟨rfl, draw_of_origin_eq_none ho⟩
  | some p =>
    obtain ⟨rfl, hp⟩ := Option.filter_eq_some_iff.1 ho
    obtain ⟨source, hs⟩ : ∃ source, host.sources[p]? = some source :=
      ⟨_, List.getElem?_eq_getElem (of_decide_eq_true hp)⟩
    have hseeded := h p source rfl hs
    cases source with
    | seeded seed drawn => exact .inr ⟨p, seed, drawn, rfl, hs, draw_seeded hs⟩
    | custom plan drawn heard => exact hseeded.elim

theorem carries_draw {host : Host} {place : Option ℕ} (h : host.IsNumbered place) :
    Nonce.Carries (host.draw place).nonce host.sequence := by
  rcases draw_of_isNumbered h with ⟨-, hd⟩ | ⟨p, seed, drawn, -, -, hd⟩
  · rw [hd]
    exact Nonce.carries_compose (Block.length_toBytes _) _
  · rw [hd]
    exact Nonce.carries_compose (NonceSource.length_seededPart seed drawn) _

def startSeeded (seeds : List ChaCha20.Key) (now : Instant) (randoms : ℕ → Random) : Host :=
  { start now randoms with sources := seeds.map (.seeded · 0) }

/-- What those who share the sources may do. A client and its clones have one place. -/
inductive Job
  | draw (place : Option ℕ)
  | build (credential : Credential) (canonicalizer : Canonicalizer) (method : Method) (body : Bytes)
    (place : Option ℕ)
  | setClock (now : Instant)

inductive Product
  | nonce (text : String)
  | built (outcome : Except Failure HeaderSet)
  | nothing

def Product.nonce? : Product → Option String
  | nonce text => some text
  | built (.ok set) => set.signature.map (·.nonce)
  | _ => none

def Job.draws : Job → Bool
  | draw _ => true
  | build credential _ _ _ _ => credential.isSigning
  | setClock _ => false

def perform (host : Host) : Job → Product × Host
  | .draw place => (.nonce (host.draw place).nonce, (host.draw place).host)
  | .build credential canonicalizer method body place =>
    let built := credential.build canonicalizer method body place host
    (.built built.outcome, built.host)
  | .setClock now => (.nothing, { host with now })

def run (host : Host) : List Job → List Product
  | [] => []
  | first :: rest => (host.perform first).1 :: (host.perform first).2.run rest

def nonceAt (host : Host) (jobs : List Job) (i : ℕ) : Option String :=
  (host.run jobs)[i]?.bind Product.nonce?

def drawsBefore (jobs : List Job) (i : ℕ) : ℕ := (jobs.take i).countP Job.draws

/-- All sources take part in the numbering, and the next draw has the number. -/
structure IsAt (host : Host) (n : ℕ) : Prop where
  seeded : ∀ source ∈ host.sources, source.IsSeeded
  sequence : host.sequence = n

theorem exists_of_nonce?_built {outcome : Except Failure HeaderSet} {nonce : String}
    (h : (Product.built outcome).nonce? = some nonce) :
    ∃ set sig, outcome = .ok set ∧ set.signature = some sig ∧ sig.nonce = nonce := by
  cases outcome with
  | error failure => cases h
  | ok set =>
    obtain ⟨sig, hsig, hn⟩ := Option.map_eq_some_iff.1 h
    exact ⟨set, sig, rfl, hsig, hn⟩

theorem isAt_startSeeded (seeds : List ChaCha20.Key) (now : Instant) (randoms : ℕ → Random) :
    (startSeeded seeds now randoms).IsAt 0 := by
  refine ⟨fun source hs ↦ ?_, rfl⟩
  obtain ⟨seed, -, rfl⟩ := List.mem_map.1 hs
  trivial

theorem drawsBefore_lt {jobs : List Job} {i j : ℕ} {job : Job} (hi : jobs[i]? = some job)
    (hd : job.draws) (h : i < j) : drawsBefore jobs i < drawsBefore jobs j := by
  have hs : drawsBefore jobs (i + 1) = drawsBefore jobs i + 1 := by
    rw [drawsBefore, List.take_add_one, hi, List.countP_append, drawsBefore]
    simp [hd]
  have hm : drawsBefore jobs (i + 1) ≤ drawsBefore jobs j :=
    (List.take_sublist_take_left h).countP_le
  omega

theorem drawsBefore_le (jobs : List Job) (i : ℕ) : drawsBefore jobs i ≤ jobs.countP Job.draws :=
  (List.take_sublist i jobs).countP_le

section IsAt

variable {host : Host} {n : ℕ}

theorem IsAt.isNumbered (h : host.IsAt n) (place : Option ℕ) : host.IsNumbered place :=
  fun _ source _ hs ↦ h.seeded source (List.mem_of_getElem? hs)

theorem isSeeded_of_mem_advance (h : ∀ source ∈ host.sources, source.IsSeeded) {p : ℕ}
    {source : NonceSource} (hs : source ∈ (host.advance p).sources) : source.IsSeeded := by
  obtain ⟨i, hi⟩ := List.mem_iff_getElem?.1 hs
  rw [advance, List.getElem?_modify] at hi
  obtain ⟨own, hown, rfl⟩ := Option.map_eq_some_iff.1 hi
  have hseeded := h own (List.mem_of_getElem? hown)
  cases own with
  | seeded => split <;> trivial
  | custom => exact hseeded.elim

theorem IsAt.draw (h : host.IsAt n) (place : Option ℕ) :
    Nonce.Carries (host.draw place).nonce n ∧ (host.draw place).host.IsAt (n + 1) := by
  have hc := carries_draw (h.isNumbered place)
  rw [h.sequence] at hc
  refine ⟨hc, ?_⟩
  rcases draw_of_isNumbered (h.isNumbered place) with ⟨-, hd⟩ | ⟨p, seed, drawn, -, -, hd⟩
  · rw [hd]
    exact ⟨h.seeded, congrArg (· + 1) h.sequence⟩
  · rw [hd]
    exact ⟨fun _ ↦ isSeeded_of_mem_advance h.seeded, congrArg (· + 1) h.sequence⟩

theorem IsAt.perform (h : host.IsAt n) (job : Job) :
    (host.perform job).2.IsAt (n + if job.draws then 1 else 0) ∧
      ∀ nonce, (host.perform job).1.nonce? = some nonce → job.draws ∧ Nonce.Carries nonce n := by
  cases job with
  | draw place =>
    obtain ⟨hn, hp⟩ := h.draw place
    refine ⟨hp, ?_⟩
    rintro _ ⟨rfl⟩
    exact ⟨rfl, hn⟩
  | build credential canonicalizer method body place =>
    rw [Host.perform, Job.draws]
    by_cases hc : credential.isSigning
    · obtain ⟨hn, hd⟩ := h.draw place
      obtain ⟨log, hb⟩ := Credential.build_of_isSigning hc canonicalizer method body place host
      rw [hb, if_pos hc]
      refine ⟨⟨hd.seeded, hd.sequence⟩, fun nonce hnonce ↦ ⟨hc, ?_⟩⟩
      obtain ⟨set, sig, ho, hsig, rfl⟩ := exists_of_nonce?_built hnonce
      obtain ⟨k, own, -, hown, rfl⟩ := Credential.exists_of_signedSet ho
      obtain ⟨payload, signature, -, -, rfl⟩ := exists_of_signContext hown
      obtain rfl := Option.some.inj hsig
      exact hn
    · rw [if_neg hc, Credential.build_of_not_isSigning hc]
      exact ⟨⟨h.seeded, h.sequence⟩, by simp [Product.nonce?, Credential.unsignedSet]⟩
  | setClock now => exact ⟨⟨h.seeded, h.sequence⟩, nofun⟩

theorem nonceAt_succ (host : Host) (first : Job) (rest : List Job) (i : ℕ) :
    host.nonceAt (first :: rest) (i + 1) = (host.perform first).2.nonceAt rest i := rfl

theorem IsAt.nonceAt (h : host.IsAt n) {jobs : List Job} {i : ℕ} {nonce : String}
    (hi : host.nonceAt jobs i = some nonce) :
    (∃ job, jobs[i]? = some job ∧ job.draws) ∧ Nonce.Carries nonce (n + drawsBefore jobs i) := by
  induction jobs generalizing host n i with
  | nil => simp [Host.nonceAt, Host.run] at hi
  | cons first rest ih =>
    obtain ⟨hp, hn⟩ := h.perform first
    cases i with
    | zero =>
      obtain ⟨hd, hc⟩ := hn nonce hi
      exact ⟨⟨first, rfl, hd⟩, hc⟩
    | succ i =>
      rw [nonceAt_succ] at hi
      obtain ⟨hj, hc⟩ := ih hp hi
      refine ⟨hj, ?_⟩
      rwa [drawsBefore, List.take_succ_cons, List.countP_cons, Nat.add_comm (List.countP _ _),
        ← Nat.add_assoc]

theorem IsAt.drawAll (h : host.IsAt n) (places : List (Option ℕ)) (i : ℕ) {nonce : String}
    (hi : (host.drawAll places)[i]? = some nonce) : Nonce.Carries nonce (n + i) := by
  induction places generalizing host n i with
  | nil => simp [Host.drawAll] at hi
  | cons first rest ih =>
    obtain ⟨hn, hp⟩ := h.draw first
    cases i with
    | zero =>
      obtain rfl : (host.draw first).nonce = nonce := by simpa [Host.drawAll] using hi
      exact hn
    | succ i =>
      have hc := ih hp i (by simpa [Host.drawAll] using hi)
      rwa [Nat.add_right_comm] at hc

theorem IsAt.ne (h : host.IsAt n) {jobs : List Job} {i j : ℕ} {a b : String} (hij : i < j)
    (hd : drawsBefore jobs j < drawsBefore jobs i + 2 ^ 64) (ha : host.nonceAt jobs i = some a)
    (hb : host.nonceAt jobs j = some b) : a ≠ b := by
  obtain ⟨⟨job, hjob, hdraws⟩, hca⟩ := h.nonceAt ha
  obtain ⟨-, hcb⟩ := h.nonceAt hb
  have hlt := drawsBefore_lt hjob hdraws hij
  exact hca.ne hcb (by omega) (by omega)

theorem IsAt.ne_of_countP (h : host.IsAt n) {jobs : List Job}
    (hc : jobs.countP Job.draws < 2 ^ 64) {i j : ℕ} {a b : String} (hij : i ≠ j)
    (ha : host.nonceAt jobs i = some a) (hb : host.nonceAt jobs j = some b) : a ≠ b := by
  have hi := drawsBefore_le jobs i
  have hj := drawsBefore_le jobs j
  rcases Nat.lt_or_gt_of_ne hij with hlt | hlt
  · exact h.ne hlt (by omega) ha hb
  · exact (h.ne hlt (by omega) hb ha).symm

end IsAt

theorem exists_nonceAt {host : Host} {jobs : List Job} {i : ℕ} {set : HeaderSet}
    (hi : (host.run jobs)[i]? = some (.built (.ok set))) (hs : set.IsSigned) :
    ∃ nonce, set.get? "X-Auth-Nonce" = some nonce ∧ host.nonceAt jobs i = some nonce := by
  obtain ⟨sig, hsig⟩ := Option.isSome_iff_exists.1 hs
  refine ⟨sig.nonce, HeaderSet.get?_nonce hsig, ?_⟩
  rw [nonceAt, hi, Option.bind_some, Product.nonce?, hsig, Option.map_some]

theorem length_drawAll (host : Host) (places : List (Option ℕ)) :
    (host.drawAll places).length = places.length := by
  induction places generalizing host with
  | nil => rfl
  | cons first rest ih => exact congrArg (· + 1) (ih (host.draw first).host)

/-- However the sources are shared, the draws are numbered in order, so that no two nonces are equal
that are fewer than `2 ^ 64` draws apart, nor those of any two signed sets of a run. -/
theorem nonces_differ (seeds : List ChaCha20.Key) (now : Instant) (randoms : ℕ → Random) :
    (∀ places, ((startSeeded seeds now randoms).drawAll places).length = places.length ∧
      ∀ n nonce, ((startSeeded seeds now randoms).drawAll places)[n]? = some nonce →
        Nonce.Carries nonce n) ∧
    ∀ jobs : List Job,
      (∀ i nonce, (startSeeded seeds now randoms).nonceAt jobs i = some nonce →
        Nonce.Carries nonce (drawsBefore jobs i)) ∧
      (∀ i j a b, i < j → drawsBefore jobs j < drawsBefore jobs i + 2 ^ 64 →
        (startSeeded seeds now randoms).nonceAt jobs i = some a →
        (startSeeded seeds now randoms).nonceAt jobs j = some b → a ≠ b) ∧
      (jobs.countP Job.draws < 2 ^ 64 → ∀ (i j : ℕ) (set set' : HeaderSet), i ≠ j →
        ((startSeeded seeds now randoms).run jobs)[i]? = some (Product.built (.ok set)) →
        ((startSeeded seeds now randoms).run jobs)[j]? = some (Product.built (.ok set')) →
        set.IsSigned → set'.IsSigned →
        ∃ a b, set.get? "X-Auth-Nonce" = some a ∧ set'.get? "X-Auth-Nonce" = some b ∧ a ≠ b) := by
  have h := isAt_startSeeded seeds now randoms
  refine ⟨fun places ↦ ⟨length_drawAll _ places, fun n nonce hn ↦ ?_⟩, fun jobs ↦ ⟨?_, ?_, ?_⟩⟩
  · simpa using h.drawAll places n hn
  · intro i nonce hi
    simpa using (h.nonceAt hi).2
  · intro i j a b hij hd ha hb
    exact h.ne hij hd ha hb
  · intro hc i j set set' hij hi hj hs hs'
    obtain ⟨a, hga, ha⟩ := exists_nonceAt hi hs
    obtain ⟨b, hgb, hb⟩ := exists_nonceAt hj hs'
    exact ⟨a, b, hga, hgb, h.ne_of_countP hc hij ha hb⟩

end Host

end RequestAuth
