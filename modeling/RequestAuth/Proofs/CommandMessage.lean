import Mathlib.Data.List.Forall2
import Mathlib.Order.Nat
import RequestAuth.Command.Run
import RequestAuth.Radix

namespace RequestAuth

namespace Hex

theorem digitChar_eq_digit : ∀ n < 16, Nat.digitChar n = digit n := by decide

theorem exists_toDigits_eq (n : ℕ) :
    ∃ values : List ℕ, (∀ v ∈ values, v < 16) ∧ Nat.toDigits 16 n = values.map digit ∧
      Radix.value 16 values = n := by
  induction n using Nat.strongRecOn with
  | ind n ih =>
    rcases Nat.lt_or_ge n 16 with hn | hn
    · refine ⟨[n], by simpa using hn, ?_, by simp [Radix.value]⟩
      rw [Nat.toDigits_of_lt_base hn, digitChar_eq_digit n hn, List.map_singleton]
    · obtain ⟨values, hlt, hd, hv⟩ := ih (n / 16) (by omega)
      have hmod : n % 16 < 16 := Nat.mod_lt n (by decide)
      refine ⟨values ++ [n % 16], ?_, ?_, ?_⟩
      · intro v hm
        rcases List.mem_append.1 hm with hm | hm
        · exact hlt v hm
        · exact (List.mem_singleton.1 hm).trans_lt hmod
      · rw [Nat.toDigits_of_base_le (by decide) hn, hd, digitChar_eq_digit _ hmod,
          List.map_append, List.map_singleton]
      · rw [Radix.value_append_singleton, hv]
        omega

end Hex

namespace Text

/-- A character in double quotes: as it is, by a letter or by its number in hex. -/
inductive Stands : List Char → Char → Prop
  | plain {c : Char} (visible : isVisible c) (hq : c ≠ '"') (hb : c ≠ '\\') : Stands [c] c
  | letter {letter c : Char}
      (h : (letter, c) ∈ [('0', Char.ofNat 0), ('t', '\t'), ('r', '\r'), ('n', '\n'), ('"', '"'),
        ('\\', '\\')]) : Stands ['\\', letter] c
  | number {values : List ℕ} {c : Char} (hidden : ¬ isVisible c) (digits : ∀ v ∈ values, v < 16)
      (value : Radix.value 16 values = c.toNat) :
      Stands (['\\', 'u', '\x7b'] ++ values.map Hex.digit ++ ['\x7d']) c

def Quotes (quote text : String) : Prop :=
  ∃ parts, List.Forall₂ Stands parts text.toList ∧
    quote.toList = ['"'] ++ parts.flatten ++ ['"']

theorem stands_escape (c : Char) : Stands (escape '"' c) c := by
  rw [escape]
  split_ifs with h0 ht hr hn hq hv
  · exact .letter (by simp [h0])
  · exact .letter (by simp [ht])
  · exact .letter (by simp [hr])
  · exact .letter (by simp [hn])
  · exact .letter (by rcases hq with rfl | rfl <;> simp)
  · exact .plain hv (fun h ↦ hq (.inl h)) (fun h ↦ hq (.inr h))
  · obtain ⟨values, hlt, hd, hvalue⟩ := Hex.exists_toDigits_eq c.toNat
    rw [hd]
    exact .number hv hlt hvalue

theorem quotes_quoted (text : String) : Quotes (quoted text) text := by
  refine ⟨text.toList.map (escape '"'), ?_, ?_⟩
  · rw [List.forall₂_map_left_iff, List.forall₂_same]
    exact fun c _ ↦ stands_escape c
  · rw [quoted, quotedWith, String.toList_ofList, List.flatMap_def]
    rfl

end Text

namespace Command.Trouble

def message (heading cause : String) : String :=
  String.ofList (("Error: " ++ heading ++ "\n\nCaused by:\n").toList ++
    (cause.toList.splitOn '\n').flatMap (fun line ↦ "    ".toList ++ line ++ ['\n']))

/-- What is said of a trouble. -/
inductive Told : Trouble → String → Prop
  | loading (path : String) (failure : Failure) :
      Told (.loading path failure) (message ("loading " ++ path) failure.message)
  | building (failure : Failure) :
      Told (.building failure) (message "building header builder" failure.message)
  | method {text quote : String} (quotes : Text.Quotes quote text) :
      Told (.method text) (message ("invalid HTTP method " ++ quote) "invalid HTTP method")
  | authenticating (failure : Failure) :
      Told (.authenticating failure) (message "authenticating request" failure.message)

theorem indent_eq_lines (cs : List Char) :
    "    ".toList ++ cs.flatMap (fun c ↦ if c = '\n' then "\n    ".toList else [c]) ++ ['\n'] =
      (cs.splitOn '\n').flatMap (fun line ↦ "    ".toList ++ line ++ ['\n']) := by
  induction cs with
  | nil => rfl
  | cons c cs ih =>
    rw [List.splitOn, List.splitOnP_cons_eq_if_modifyHead, List.flatMap_cons]
    by_cases hc : c = '\n'
    · subst hc
      rw [if_pos rfl, if_pos (beq_self_eq_true _), List.flatMap_cons, ← List.splitOn, ← ih]
      rfl
    · rw [if_neg hc, if_neg (by simpa using hc), ← List.splitOn]
      cases hs : cs.splitOn '\n' with
      | nil => exact absurd hs (List.splitOnP_ne_nil _ _)
      | cons first rest =>
        rw [hs] at ih
        simpa using ih

theorem told_report (trouble : Trouble) : Told trouble (Outcome.failed trouble).standardError := by
  have h : (Outcome.failed trouble).standardError = message trouble.context trouble.cause := by
    rw [← String.toList_inj, message, String.toList_ofList, ← indent_eq_lines]
    simp [Outcome.standardError, report, indent]
  rw [h]
  cases trouble with
  | loading path failure => exact .loading path failure
  | building failure => exact .building failure
  | method text => exact .method (Text.quotes_quoted text)
  | authenticating failure => exact .authenticating failure

example : (Outcome.failed (.method "GET \"")).standardError =
    "Error: invalid HTTP method \"GET \\\"\"\n\nCaused by:\n    invalid HTTP method\n" := by
  decide +kernel

end Command.Trouble

end RequestAuth
