import Mathlib.Data.List.Nodup
import RequestAuth.HeaderSet
import RequestAuth.Outcome

namespace RequestAuth

open Http

theorem AuthHeader.name_injective : Function.Injective AuthHeader.name := by
  intro a b h
  cases a <;> cases b <;> first | rfl | exact absurd h (by decide +kernel)

namespace Http

def HeaderName.IsOther (name : HeaderName) : Prop := ∀ h : AuthHeader, h.name ≠ name

/-- Two requests differ at most in their authenticating headers. -/
structure Request.SameOtherwise (a b : Request) : Prop where
  method : a.method = b.method
  uri : a.uri = b.uri
  body : a.body = b.body
  others : ∀ name : HeaderName, name.IsOther → a.headers.values name = b.headers.values name

namespace Request.SameOtherwise

theorem refl (a : Request) : SameOtherwise a a := ⟨rfl, rfl, rfl, fun _ _ ↦ rfl⟩

theorem trans {a b c : Request} (h : SameOtherwise a b) (h' : SameOtherwise b c) :
    SameOtherwise a c :=
  ⟨h.method.trans h'.method, h.uri.trans h'.uri, h.body.trans h'.body,
    fun name hn ↦ (h.others name hn).trans (h'.others name hn)⟩

end Request.SameOtherwise

namespace Headers

theorem values_entries_append (a b : List (HeaderName × String)) (name : HeaderName) :
    (Headers.mk (a ++ b)).values name =
      (Headers.mk a).values name ++ (Headers.mk b).values name := by
  simp only [values, List.filter_append, List.map_append]

theorem values_foldl_remove (removed : List AuthHeader) (headers : Headers) (name : HeaderName) :
    (removed.foldl (fun headers header ↦ headers.remove header.name) headers).values name =
      if ∃ h ∈ removed, h.name = name then [] else headers.values name := by
  induction removed generalizing headers with
  | nil => simp
  | cons first rest ih =>
    rw [List.foldl_cons, ih, values_remove]
    by_cases hf : first.name = name
    · simp [hf]
    · simp [hf]

end Headers

end Http

namespace HeaderSet

/-- Of the authenticating headers there are those of the set, each with one value, and no others. -/
structure OnlyOn (set : HeaderSet) (headers : Headers) : Prop where
  one : ∀ pair ∈ set.toList, headers.values pair.1.name = [pair.2]
  none : ∀ h, h ∉ set.toList.map Prod.fst → headers.values h.name = []

def Sendable (set : HeaderSet) : Prop := ∀ pair ∈ set.toList, IsValue pair.2

theorem mem_all (h : AuthHeader) : h ∈ AuthHeader.all := by
  cases h <;> decide

theorem values_strip_auth (headers : Headers) (h : AuthHeader) :
    (strip headers).values h.name = [] := by
  rw [strip, Headers.values_foldl_remove, if_pos ⟨h, mem_all h, rfl⟩]

theorem values_strip_other (headers : Headers) {name : HeaderName} (hn : name.IsOther) :
    (strip headers).values name = headers.values name := by
  rw [strip, Headers.values_foldl_remove, if_neg]
  rintro ⟨h, -, hh⟩
  exact hn h hh

theorem length_toList_eq (set : HeaderSet) : set.toList.length = 1 ∨ set.toList.length = 5 := by
  rw [set.length_toList, HeaderSet.count]
  split
  · exact .inr rfl
  · exact .inl rfl

theorem get?_nonce {set : HeaderSet} {sig : SignatureHeaders} (h : set.signature = some sig) :
    set.get? "X-Auth-Nonce" = some sig.nonce := by
  have hn : HeaderName.ofText "X-Auth-Nonce" = AuthHeader.nonce.name := rfl
  obtain ⟨identityHeader, identity, signature⟩ := set
  obtain rfl : signature = some sig := h
  rw [get?, hn]
  simp only [AuthHeader.name_injective.eq_iff]
  cases identityHeader <;> rfl

theorem nodup_names (set : HeaderSet) : (set.toList.map Prod.fst).Nodup := by
  obtain ⟨identityHeader, identity, _ | signature⟩ := set <;>
    cases identityHeader <;> simp [toList, IdentityHeader.toAuthHeader]

theorem mapM_checkValue (pairs : List (AuthHeader × String)) (h : ∀ pair ∈ pairs, IsValue pair.2) :
    pairs.mapM checkValue = .ok (pairs.map (fun pair ↦ (pair.1.name, pair.2))) := by
  induction pairs with
  | nil => rfl
  | cons pair rest ih =>
    rw [List.mapM_cons, ih (fun p hp ↦ h p (by simp [hp])), checkValue, if_pos (h pair (by simp))]
    rfl

theorem isValue_of_mapM_checkValue {pairs : List (AuthHeader × String)}
    {entries : List (HeaderName × String)} (h : pairs.mapM checkValue = .ok entries) :
    ∀ pair ∈ pairs, IsValue pair.2 := by
  induction pairs generalizing entries with
  | nil => simp
  | cons pair rest ih =>
    rw [List.mapM_cons, checkValue] at h
    by_cases hv : IsValue pair.2
    · rw [if_pos hv] at h
      cases hr : rest.mapM checkValue with
      | error failure =>
        rw [hr] at h
        cases h
      | ok tail =>
        intro p hp
        rcases List.mem_cons.1 hp with rfl | hp
        · exact hv
        · exact ih hr p hp
    · rw [if_neg hv] at h
      cases h

def valueFault? (pair : AuthHeader × String) : Option Failure :=
  if IsValue pair.2 then none else some (.badHeader pair.1.text valueComplaint)

theorem valueFault?_of_isValue {pair : AuthHeader × String} (h : IsValue pair.2) :
    valueFault? pair = none :=
  if_pos h

theorem eq_of_valueFault? {pair : AuthHeader × String} {failure : Failure}
    (h : valueFault? pair = some failure) : failure = .badHeader pair.1.text valueComplaint := by
  rw [valueFault?] at h
  split at h
  · cases h
  · exact (Option.some.inj h).symm

theorem failsOf_checkValue (pair : AuthHeader × String) :
    FailsOf (checkValue pair) (valueFault? pair) := by
  rw [checkValue, valueFault?]
  split
  · exact .of_ok rfl
  · exact .of_error rfl

theorem failsOf_mapM_checkValue (pairs : List (AuthHeader × String)) :
    FailsOf (pairs.mapM checkValue) (pairs.findSome? valueFault?) := by
  induction pairs with
  | nil => exact .of_ok rfl
  | cons first rest ih =>
    rw [List.mapM_cons, List.findSome?_cons]
    have h := (failsOf_checkValue first).bind (fun entry _ ↦ ih.map (entry :: ·))
    cases hf : valueFault? first <;> rw [hf] at h <;> exact h

/-- The request with the set's headers in the place of all that it had of theirs. -/
def stamped (set : HeaderSet) (request : Request) : Request :=
  { request with
    headers := ⟨(strip request.headers).entries ++
      set.toList.map (fun pair ↦ (pair.1.name, pair.2))⟩ }

theorem applyTo_of_sendable {set : HeaderSet} (h : set.Sendable) (request : Request) :
    set.applyTo request = .ok (set.stamped request) := by
  rw [applyTo, toHeaders, mapM_checkValue _ h]
  rfl

theorem applyTo_eq_ok_iff {set : HeaderSet} {request result : Request} :
    set.applyTo request = .ok result ↔ set.Sendable ∧ result = set.stamped request := by
  constructor
  · intro h
    have hs : set.Sendable := by
      cases hm : set.toList.mapM checkValue with
      | error failure =>
        rw [applyTo, toHeaders, hm] at h
        cases h
      | ok entries => exact isValue_of_mapM_checkValue hm
    rw [applyTo_of_sendable hs] at h
    exact ⟨hs, (Except.ok.inj h).symm⟩
  · rintro ⟨hs, rfl⟩
    exact applyTo_of_sendable hs request

theorem failsOf_applyTo (set : HeaderSet) (request : Request) :
    FailsOf (set.applyTo request) (set.toList.findSome? valueFault?) := by
  rw [← Option.or_none (o := set.toList.findSome? valueFault?)]
  exact ((failsOf_mapM_checkValue set.toList).map Headers.mk).bind (fun fresh _ ↦ .of_ok rfl)

theorem exists_of_applyTo_error {set : HeaderSet} {request : Request} {failure : Failure}
    (h : set.applyTo request = .error failure) :
    ∃ pair ∈ set.toList, failure = .badHeader pair.1.text valueComplaint := by
  have hs := (set.failsOf_applyTo request failure).1 h
  obtain ⟨pair, hp, hf⟩ := List.exists_of_findSome?_eq_some hs
  exact ⟨pair, hp, eq_of_valueFault? hf⟩

theorem sameOtherwise_stamped (set : HeaderSet) (request : Request) :
    (set.stamped request).SameOtherwise request := by
  refine ⟨rfl, rfl, rfl, fun name hn ↦ ?_⟩
  have hnone :
      (Headers.mk (set.toList.map (fun pair ↦ (pair.1.name, pair.2)))).values name = [] := by
    simp only [Headers.values, List.map_eq_nil_iff, List.filter_eq_nil_iff, List.mem_map]
    rintro _ ⟨pair, -, rfl⟩
    simpa using hn pair.1
  rw [stamped, Headers.values_entries_append, hnone, List.append_nil]
  exact values_strip_other request.headers hn

theorem values_stamped (set : HeaderSet) (request : Request) (h : AuthHeader) :
    (set.stamped request).headers.values h.name =
      (set.toList.filter (fun pair ↦ pair.1 = h)).map Prod.snd := by
  rw [stamped, Headers.values_entries_append]
  have hs : (Headers.mk (strip request.headers).entries).values h.name = [] :=
    values_strip_auth request.headers h
  rw [hs, List.nil_append, Headers.values, List.filter_map, List.map_map]
  simp only [Function.comp_def, AuthHeader.name_injective.eq_iff]

theorem values_nonce_stamped (set : HeaderSet) (request : Request) :
    (set.stamped request).headers.values AuthHeader.nonce.name =
      (set.signature.map SignatureHeaders.nonce).toList := by
  rw [values_stamped]
  obtain ⟨identityHeader, identity, _ | signature⟩ := set <;> cases identityHeader <;> rfl

theorem filter_eq_singleton {pairs : List (AuthHeader × String)}
    (hn : (pairs.map Prod.fst).Nodup) {pair : AuthHeader × String} (hp : pair ∈ pairs) :
    pairs.filter (fun other ↦ other.1 = pair.1) = [pair] := by
  induction pairs with
  | nil => simp at hp
  | cons first rest ih =>
    rw [List.map_cons, List.nodup_cons] at hn
    rcases List.mem_cons.1 hp with rfl | hp
    · rw [List.filter_cons_of_pos (by simp), List.filter_eq_nil_iff.2]
      intro other ho he
      exact hn.1 (List.mem_map.2 ⟨other, ho, by simpa using he⟩)
    · rw [List.filter_cons_of_neg, ih hn.2 hp]
      intro he
      exact hn.1 (List.mem_map.2 ⟨pair, hp, (of_decide_eq_true he).symm⟩)

theorem onlyOn_stamped (set : HeaderSet) (request : Request) :
    set.OnlyOn (set.stamped request).headers := by
  constructor
  · intro pair hp
    rw [values_stamped, filter_eq_singleton set.nodup_names hp, List.map_singleton]
  · intro h hh
    rw [values_stamped, List.map_eq_nil_iff, List.filter_eq_nil_iff]
    intro pair hp he
    exact hh (List.mem_map.2 ⟨pair, hp, by simpa using he⟩)

end HeaderSet

end RequestAuth
