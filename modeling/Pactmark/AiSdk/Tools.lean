import Pactmark.Core.Tokens
import Pactmark.Durable.Fresh

/-!
# AiSdk — the names of tools

`advertiseTools` of `ai-sdk/src/index.ts`, and the lookup of a tool call in `createDriver`.  A
text is its UTF-16 code units.  The loop of a tool goes through numbered names until one is free;
the fuel it has is one more than the names that are used.

* `candidateName_inj`: the names of one tool differ.
* `Advertised.advertise`: what a tool adds to the names that are used.
* `advertiseTools_faithful`: what follows for a list of tools.
-/

namespace Pactmark

open JsString (lit)

open Durable

/-- `ModelAgentContextTool`. -/
structure ModelAgentContextTool (Num : Type) where
  id : JsString
  description : JsString
  toolRegistrationDigest : JsString
  inputJsonSchema : Json Num

/-- `AdvertisedTool`. -/
structure AdvertisedTool (Num : Type) where
  providerName : JsString
  toolRegistrationDigest : JsString
  definition : ModelAgentContextTool Num

namespace AiSdk

variable {Num : Type}

/-- `[a-zA-Z0-9_-]`. -/
def nameUnit (unit : Nat) : Bool :=
  (97 ≤ unit && unit ≤ 122) || (65 ≤ unit && unit ≤ 90) || (48 ≤ unit && unit ≤ 57) ||
    unit == 95 || unit == 45

/-- `id.replace(/[^a-zA-Z0-9_-]/gu, "_")`: a surrogate pair is one character. -/
def sanitize : JsString → JsString
  | [] => []
  | [unit] => if nameUnit unit then [unit] else [95]
  | unit :: next :: rest =>
      if nameUnit unit then unit :: sanitize (next :: rest)
      else if isHighSurrogate unit ∧ isLowSurrogate next then 95 :: sanitize rest
      else 95 :: sanitize (next :: rest)

/-- `base` of a tool. -/
def baseName (id : JsString) : JsString :=
  let base := (sanitize id).take 56
  if base = [] then lit "tool" else base

/-- `providerName` at a value of `suffix`. -/
def candidateName (base : JsString) (suffix : Nat) : JsString :=
  if suffix = 1 then base else base ++ lit "_" ++ lit (toString suffix)

/-- The loop over the tools, with the names that are used. -/
def advertise (used : List JsString) :
    List (ModelAgentContextTool Num) → Option (List (AdvertisedTool Num))
  | [] => some []
  | definition :: tools =>
      match firstFree (candidateName (baseName definition.id)) used (used.length + 1) 1 with
      | none => none
      | some providerName =>
          (advertise (used ++ [providerName]) tools).map
            (⟨providerName, definition.toolRegistrationDigest, definition⟩ :: ·)

/-- `advertiseTools`. -/
def advertiseTools (tools : List (ModelAgentContextTool Num)) :
    Option (List (AdvertisedTool Num)) :=
  advertise [] tools

/-- `advertised.find((candidate) => candidate.providerName === part.toolName)`. -/
def findAdvertised (advertised : List (AdvertisedTool Num)) (toolName : JsString) :
    Option (AdvertisedTool Num) :=
  advertised.find? fun candidate => candidate.providerName = toolName

/-! ### One name -/

theorem nameUnit_sanitize (id : JsString) : ∀ unit ∈ sanitize id, nameUnit unit = true := by
  induction id using sanitize.induct with
  | case1 => simp [sanitize]
  | case2 unit hunit => simp [sanitize, hunit]
  | case3 unit hunit =>
    rw [sanitize, if_neg hunit]
    simp [nameUnit]
  | case4 unit next rest hunit ih =>
    rw [sanitize, if_pos hunit]
    intro u hu
    rcases List.mem_cons.mp hu with rfl | hu
    · exact hunit
    · exact ih u hu
  | case5 unit next rest hunit hpair ih =>
    rw [sanitize, if_neg hunit, if_pos hpair]
    intro u hu
    rcases List.mem_cons.mp hu with rfl | hu
    · rfl
    · exact ih u hu
  | case6 unit next rest hunit hpair ih =>
    rw [sanitize, if_neg hunit, if_neg hpair]
    intro u hu
    rcases List.mem_cons.mp hu with rfl | hu
    · rfl
    · exact ih u hu

/-- **A base name** is not empty, is short, and is over the alphabet. -/
theorem baseName_spec (id : JsString) :
    baseName id ≠ [] ∧ (baseName id).length ≤ 56 ∧
      ∀ unit ∈ baseName id, nameUnit unit = true := by
  unfold baseName
  dsimp only
  split
  · exact ⟨by decide, by decide, by decide⟩
  · rename_i hne
    refine ⟨hne, ?_, fun unit hunit => ?_⟩
    · rw [List.length_take]
      exact Nat.min_le_left _ _
    · exact nameUnit_sanitize id unit (List.mem_of_mem_take hunit)

theorem nameUnit_toString (n : Nat) : ∀ unit ∈ lit (toString n), nameUnit unit = true := by
  intro unit hunit
  obtain ⟨c, hc, rfl⟩ := List.mem_map.mp hunit
  have hdigits : c ∈ Nat.toDigits 10 n := by
    rwa [show toString n = n.repr from rfl, Nat.repr_eq_ofList_toDigits, String.toList_ofList]
      at hc
  have hdigit := Nat.isDigit_of_mem_toDigits (by decide) (by decide) hdigits
  simp only [Char.isDigit, Bool.and_eq_true, decide_eq_true_eq] at hdigit
  have hlow : 48 ≤ c.toNat := hdigit.1
  have hhigh : c.toNat ≤ 57 := hdigit.2
  simp [nameUnit, hlow, hhigh]

theorem length_toString_le {n : Nat} (h : n < 10 ^ 7) : (lit (toString n)).length ≤ 7 := by
  have hlength := (Nat.length_repr_le_iff (by decide)).mpr h
  rwa [lit, List.length_map, String.length_toList]

/-- **The names of one tool differ.** -/
theorem candidateName_inj (base : JsString) {j k : Nat}
    (h : candidateName base j = candidateName base k) : j = k := by
  unfold candidateName at h
  by_cases hj' : j = 1 <;> by_cases hk' : k = 1
  · rw [hj', hk']
  · rw [if_pos hj', if_neg hk', List.append_assoc] at h
    have hlength := congrArg List.length h
    simp [lit] at hlength
  · rw [if_neg hj', if_pos hk', List.append_assoc] at h
    have hlength := congrArg List.length h
    simp [lit] at hlength
  · rw [if_neg hj', if_neg hk'] at h
    exact natText_injective (lit_injective (List.append_cancel_left h))

/-- A name a provider takes. -/
structure ProviderName (name : JsString) : Prop where
  ne_nil : name ≠ []
  length : name.length ≤ 64
  units : ∀ unit ∈ name, nameUnit unit = true

/-- **A name of a tool** is one a provider takes, as long as its suffix is below ten million. -/
theorem providerName_candidate (id : JsString) {suffix : Nat} (h : suffix < 10 ^ 7) :
    ProviderName (candidateName (baseName id) suffix) := by
  obtain ⟨hne, hlength, hunits⟩ := baseName_spec id
  unfold candidateName
  split
  · exact ⟨hne, by omega, hunits⟩
  · have hdigits := length_toString_le h
    refine ⟨by simp [hne], ?_, fun unit hunit => ?_⟩
    · rw [List.length_append, List.length_append, show (lit "_").length = 1 from rfl]
      omega
    · rcases List.mem_append.mp hunit with hunit | hunit
      · rcases List.mem_append.mp hunit with hunit | hunit
        · exact hunits unit hunit
        · rw [List.mem_singleton.mp (show unit ∈ [95] from hunit)]
          rfl
      · exact nameUnit_toString suffix unit hunit

/-! ### The list -/

/-- **What the loop over the tools answers**, beside the names that are used. -/
structure Advertised (used : List JsString) (tools : List (ModelAgentContextTool Num))
    (entries : List (AdvertisedTool Num)) : Prop where
  issued : entries.map (fun entry => (entry.toolRegistrationDigest, entry.definition)) =
    tools.map fun definition => (definition.toolRegistrationDigest, definition)
  nodup : (entries.map (·.providerName)).Nodup
  unused : ∀ entry ∈ entries, entry.providerName ∉ used
  names : ∀ entry ∈ entries, ProviderName entry.providerName

/-- **The loop ends** for each tool, and names every one of them. -/
theorem advertised_advertise (used : List JsString) (tools : List (ModelAgentContextTool Num))
    (h : used.length + tools.length < 10 ^ 7) :
    ∃ entries, advertise used tools = some entries ∧ Advertised used tools entries := by
  induction tools generalizing used with
  | nil => exact ⟨[], rfl, ⟨rfl, List.nodup_nil, nofun, nofun⟩⟩
  | cons definition tools ih =>
    rw [List.length_cons] at h
    obtain ⟨providerName, hname⟩ := firstFree_ends (n := 1)
      (fun j k _ _ heq => candidateName_inj (baseName definition.id) heq)
      (Nat.lt_succ_self used.length)
    obtain ⟨hunused, suffix, -, hsuffix, heq⟩ := firstFree_some hname
    obtain ⟨entries, hentries, hrest⟩ := ih (used ++ [providerName]) (by
      rw [List.length_append, List.length_singleton]
      omega)
    refine ⟨⟨providerName, definition.toolRegistrationDigest, definition⟩ :: entries, ?_, ?_, ?_,
      fun entry hentry => ?_, fun entry hentry => ?_⟩
    · rw [advertise, hname]
      dsimp only
      rw [hentries, Option.map_some]
    · rw [List.map_cons, List.map_cons, hrest.issued]
    · rw [List.map_cons, List.nodup_cons]
      refine ⟨fun hmem => ?_, hrest.nodup⟩
      obtain ⟨entry, hentry, hsame⟩ := List.mem_map.mp hmem
      exact hrest.unused entry hentry (by simp [hsame])
    · rcases List.mem_cons.mp hentry with rfl | hentry
      · exact hunused
      · exact fun hmem => hrest.unused entry hentry (List.mem_append_left _ hmem)
    · rcases List.mem_cons.mp hentry with rfl | hentry
      · rw [heq]
        exact providerName_candidate definition.id (by omega)
      · exact hrest.names entry hentry

/-- **The names of tools are a faithful encoding**: the loop ends for each tool, the names differ
and are ones a provider takes, and the lookup of a name finds the entry that has it. -/
theorem advertiseTools_faithful (tools : List (ModelAgentContextTool Num))
    (h : tools.length < 10 ^ 7) :
    ∃ entries, advertiseTools tools = some entries ∧
      entries.map (fun entry => (entry.toolRegistrationDigest, entry.definition)) =
        tools.map (fun definition => (definition.toolRegistrationDigest, definition)) ∧
      (entries.map (·.providerName)).Nodup ∧
      (∀ entry ∈ entries, ProviderName entry.providerName) ∧
      ∀ entry ∈ entries, findAdvertised entries entry.providerName = some entry := by
  obtain ⟨entries, hentries, hadvertised⟩ := advertised_advertise [] tools (by simpa using h)
  refine ⟨entries, hentries, hadvertised.issued, hadvertised.nodup, hadvertised.names,
    fun entry hentry => ?_⟩
  unfold findAdvertised
  cases hfound : entries.find? fun candidate => candidate.providerName = entry.providerName with
  | none =>
    have hnone := List.find?_eq_none.mp hfound entry hentry
    simp at hnone
  | some found =>
    have hname : found.providerName = entry.providerName := by
      simpa using List.find?_some hfound
    rw [List.inj_on_of_nodup_map hadvertised.nodup (List.mem_of_find?_eq_some hfound) hentry hname]

/-- Tools whose names meet, one of them with the suffix of another. -/
def meetingTools : List (ModelAgentContextTool Int) :=
  ["a.b", "a_b", "a_b_2"].map fun id => ⟨lit id, [], lit id, .null⟩

/-- Each of them has a name of its own. -/
theorem advertiseTools_faithful_meeting :
    ∃ entries, advertiseTools meetingTools = some entries ∧
      entries.map (·.providerName) = [lit "a_b", lit "a_b_2", lit "a_b_2_2"] ∧
      ∀ entry ∈ entries, findAdvertised entries entry.providerName = some entry := by
  obtain ⟨entries, hentries, -, -, -, hfound⟩ := advertiseTools_faithful meetingTools (by decide)
  refine ⟨entries, hentries, ?_, hfound⟩
  have hnames : (advertiseTools meetingTools).map (·.map (·.providerName)) =
      some [lit "a_b", lit "a_b_2", lit "a_b_2_2"] := by decide +kernel
  rw [hentries] at hnames
  exact Option.some.inj hnames

end AiSdk

end Pactmark
