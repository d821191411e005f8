import RequestAuth.Proofs.Keystream
import RequestAuth.Proofs.NonceUniqueness

namespace RequestAuth

open Http

theorem Nonce.take_compose {random : Bytes} (h : random.length = randomLength) (n : ℕ) :
    (compose random n).toList.take 48 = Hex.encodeChars random := by
  have hl : (Hex.encodeChars random).length = 48 := by
    rw [Hex.length_encodeChars, h]
    rfl
  rw [compose, Hex.encode, String.toList_ofList, Hex.encodeChars_append, List.take_left' hl]

namespace Host

theorem take_nonce_draw_seeded {host : Host} {p drawn : ℕ} {seed : ChaCha20.Key}
    (h : host.sources[p]? = some (.seeded seed drawn)) :
    (host.draw (some p)).nonce.toList.take 48 =
      Hex.encodeChars (ChaCha20.slice seed (24 * drawn) 24) := by
  rw [draw_seeded h, ← NonceSource.seededPart_eq_slice]
  exact Nonce.take_compose (NonceSource.length_seededPart seed drawn) host.sequence

def Job.place : Job → Option ℕ
  | draw place => place
  | build _ _ _ _ place => place
  | setClock _ => none

def Job.drawsFrom (i : ℕ) (job : Job) : Bool := job.draws && job.place == some i

def Holds (host : Host) (i : ℕ) (seed : ChaCha20.Key) (drawn : ℕ) : Prop :=
  host.sources[i]? = some (.seeded seed drawn)

theorem holds_startSeeded (seeds : List ChaCha20.Key) (now : Instant) (randoms : ℕ → Random)
    (i : Fin seeds.length) : (startSeeded seeds now randoms).Holds i seeds[i] 0 := by
  simp [Holds, startSeeded]

section Perform

variable (host : Host) {job : Job}

theorem perform_of_draws (hd : job.draws) :
    (host.perform job).2.sources = (host.draw job.place).host.sources ∧
      ∀ nonce, (host.perform job).1.nonce? = some nonce →
        nonce = (host.draw job.place).nonce := by
  cases job with
  | draw place => exact ⟨rfl, fun nonce hn ↦ (Option.some.inj hn).symm⟩
  | build credential canonicalizer method body place =>
    have hc : credential.isSigning := hd
    obtain ⟨log, hb⟩ := Credential.build_of_isSigning hc canonicalizer method body place host
    rw [perform]
    refine ⟨by rw [hb]; rfl, fun nonce hn ↦ ?_⟩
    obtain ⟨set, sig, ho, hsig, rfl⟩ := exists_of_nonce?_built hn
    obtain ⟨signature, rfl, hs⟩ := Credential.exists_of_build ho
    rw [if_pos hc] at hs
    exact Option.some.inj ((congrArg (Option.map _) hsig).symm.trans hs)
  | setClock now => cases hd

theorem sources_perform_of_not_draws (hd : ¬ job.draws) :
    (host.perform job).2.sources = host.sources := by
  cases job with
  | draw place => exact absurd rfl hd
  | build credential canonicalizer method body place =>
    rw [perform, Credential.build_of_not_isSigning hd]
    rfl
  | setClock now => rfl

end Perform

section Holds

variable {host : Host} {i drawn n : ℕ} {seed : ChaCha20.Key}

/-- A source moves on with its own draws, and those from other library sources have no part in it. -/
theorem Holds.draw (h : host.Holds i seed drawn) (ha : host.IsAt n) (place : Option ℕ) :
    (host.draw place).host.Holds i seed (drawn + if place = some i then 1 else 0) := by
  rcases draw_of_isNumbered (ha.isNumbered place) with ⟨ho, hd⟩ | ⟨p, own, m, rfl, -, hd⟩
  · have hne : place ≠ some i := fun hp ↦
      absurd (List.getElem?_eq_some_iff.1 h).1 (Nat.not_lt.2 (origin_eq_none_iff.1 ho i hp))
    rw [hd, if_neg hne]
    exact h
  · rw [hd, Holds, number, advance, List.getElem?_modify, h]
    by_cases hp : p = i <;> simp [hp, NonceSource.advance]

theorem Holds.perform (h : host.Holds i seed drawn) (ha : host.IsAt n) (job : Job) :
    (host.perform job).2.Holds i seed (drawn + if job.drawsFrom i then 1 else 0) := by
  by_cases hd : job.draws
  · have hf : job.drawsFrom i ↔ job.place = some i := by simp [Job.drawsFrom, hd]
    rw [Holds, (host.perform_of_draws hd).1]
    simp only [hf]
    exact h.draw ha job.place
  · have hf : ¬ job.drawsFrom i := by simp [Job.drawsFrom, hd]
    rw [Holds, sources_perform_of_not_draws host hd, if_neg hf]
    exact h

theorem Holds.take_nonce (h : host.Holds i seed drawn) {job : Job} (hf : job.drawsFrom i)
    {nonce : String} (hn : (host.perform job).1.nonce? = some nonce) :
    nonce.toList.take 48 = Hex.encodeChars (ChaCha20.slice seed (24 * drawn) 24) := by
  obtain ⟨hd, hp⟩ : job.draws ∧ job.place = some i := by simpa [Job.drawsFrom] using hf
  rw [(host.perform_of_draws hd).2 nonce hn, hp]
  exact take_nonce_draw_seeded h

def drawnBefore (i : ℕ) (jobs : List Job) (n : ℕ) : ℕ := (jobs.take n).countP (Job.drawsFrom i)

theorem Holds.nonceAt (h : host.Holds i seed drawn) (ha : host.IsAt n) {jobs : List Job} {k : ℕ}
    {job : Job} (hj : jobs[k]? = some job) (hf : job.drawsFrom i) {nonce : String}
    (hn : host.nonceAt jobs k = some nonce) :
    nonce.toList.take 48 =
      Hex.encodeChars (ChaCha20.slice seed (24 * (drawn + drawnBefore i jobs k)) 24) := by
  induction jobs generalizing host drawn n k with
  | nil => cases hj
  | cons first rest ih =>
    cases k with
    | zero =>
      obtain rfl := Option.some.inj hj
      exact h.take_nonce hf hn
    | succ k =>
      rw [nonceAt_succ] at hn
      have hc := ih (h.perform ha first) (ha.perform first).1 hj hn
      rwa [drawnBefore, List.take_succ_cons, List.countP_cons, Nat.add_comm (List.countP _ _),
        ← Nat.add_assoc]

end Holds

theorem run_map_draw (host : Host) (places : List (Option ℕ)) :
    host.run (places.map .draw) = (host.drawAll places).map .nonce := by
  induction places generalizing host with
  | nil => rfl
  | cons first rest ih => exact congrArg (_ :: ·) (ih (host.draw first).host)

theorem nonceAt_map_draw (host : Host) (places : List (Option ℕ)) (n : ℕ) :
    host.nonceAt (places.map .draw) n = (host.drawAll places)[n]? := by
  rw [nonceAt, run_map_draw, List.getElem?_map]
  cases (host.drawAll places)[n]? <;> rfl

theorem drawnBefore_map_draw (i : ℕ) (places : List (Option ℕ)) (n : ℕ) :
    drawnBefore i (places.map .draw) n = (places.take n).count (some i) := by
  rw [drawnBefore, ← List.map_take, List.countP_map]
  rfl

/-- Of each seed the draws take consecutive pieces of its keystream, in whatever order they come
among those from other sources, and whether a nonce is drawn by itself or by a client that shares
the source. -/
theorem seeded_draws_cut_keystream (seeds : List ChaCha20.Key) (now : Instant)
    (randoms : ℕ → Random) (i : Fin seeds.length) :
    (∀ (places : List (Option ℕ)) (n : ℕ), places[n]? = some (some i.val) →
      ∃ nonce, ((startSeeded seeds now randoms).drawAll places)[n]? = some nonce ∧
        nonce.toList.take 48 = Hex.encodeChars
          (ChaCha20.slice seeds[i] (24 * (places.take n).count (some i.val)) 24)) ∧
    ∀ (jobs : List Job) (n : ℕ) (job : Job) (nonce : String), jobs[n]? = some job →
      job.drawsFrom i → (startSeeded seeds now randoms).nonceAt jobs n = some nonce →
        nonce.toList.take 48 = Hex.encodeChars
          (ChaCha20.slice seeds[i] (24 * drawnBefore i jobs n) 24) := by
  have hrun (jobs : List Job) (n : ℕ) (job : Job) (nonce : String) (hj : jobs[n]? = some job)
      (hf : job.drawsFrom i) (hn : (startSeeded seeds now randoms).nonceAt jobs n = some nonce) :
      nonce.toList.take 48 = Hex.encodeChars
        (ChaCha20.slice seeds[i] (24 * drawnBefore i jobs n) 24) := by
    simpa using (holds_startSeeded seeds now randoms i).nonceAt
      (isAt_startSeeded seeds now randoms) hj hf hn
  refine ⟨fun places n hp ↦ ?_, hrun⟩
  have hlt : n < ((startSeeded seeds now randoms).drawAll places).length := by
    rw [length_drawAll]
    exact (List.getElem?_eq_some_iff.1 hp).1
  have hnonce := List.getElem?_eq_getElem hlt
  refine ⟨_, hnonce, ?_⟩
  rw [← nonceAt_map_draw] at hnonce
  rw [← drawnBefore_map_draw]
  exact hrun (places.map .draw) n (.draw (some i.val)) _ (by rw [List.getElem?_map, hp]; rfl)
    (by simp [Job.drawsFrom, Job.draws, Job.place]) hnonce

end Host

end RequestAuth
