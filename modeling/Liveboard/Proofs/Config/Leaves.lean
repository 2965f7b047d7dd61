/-
  Liveboard/Proofs/Config/Leaves.lean
  ===================================
  **The settings that a client takes, one by one.**

  Preferences are seven leaves, six of them in groups.  A leaf takes values of one type
  only; read from a table of settings, preferences come about exactly if each leaf takes
  its value there or its default, and then that value is what the leaf has.
-/
import Liveboard.Config.Preferences

namespace Liveboard.Config

open Preferences

/-- A table of leaves at the top. -/
inductive Group where
  | server
  | auth
  | timing
deriving DecidableEq, Repr

namespace Group

def name : Group → String
  | .server => "server"
  | .auth => "auth"
  | .timing => "timing"

/-- The names of its leaves, in their order. -/
def leafNames : Group → List String
  | .server => ["url"]
  | .auth => ["token"]
  | .timing => timingNames

end Group

/-- A single setting. -/
inductive Leaf where
  | url
  | token
  | reconnectDelay
  | resumeDelay
  | saveTimeout
  | errorTtl
  | capabilities
deriving DecidableEq, Repr

namespace Leaf

def group? : Leaf → Option Group
  | .url => some .server
  | .token => some .auth
  | .reconnectDelay | .resumeDelay | .saveTimeout | .errorTtl => some .timing
  | .capabilities => none

def name : Leaf → String
  | .url => "url"
  | .token => "token"
  | .reconnectDelay => "reconnect_delay_ms"
  | .resumeDelay => "resume_delay_ms"
  | .saveTimeout => "save_timeout_ms"
  | .errorTtl => "error_ttl_ms"
  | .capabilities => "capabilities"

/-- The keys that lead to it. -/
def path (leaf : Leaf) : List String := (leaf.group?.map Group.name).toList ++ [leaf.name]

/-- The values of the right type. -/
def Fits : Leaf → Setting → Prop
  | .url, value => ∃ s, value = .text s
  | .token, value => value = .empty ∨ ∃ s, value = .text s
  | .capabilities, value => ∃ names : List String, value = .list (names.map .text)
  | _, value => ∃ n : Nat, n < Number.unsignedLimit ∧ value = .integer n

/-- No leaf takes a table. -/
theorem not_fits_table (leaf : Leaf) (entries : Entries) : ¬ leaf.Fits (.table entries) := by
  cases leaf <;> simp [Fits]

theorem path_of_group? {leaf : Leaf} {group : Group} (h : leaf.group? = some group) :
    leaf.path = [group.name, leaf.name] := by
  rw [path, h]
  rfl

theorem name_mem_leafNames {leaf : Leaf} {group : Group} (h : leaf.group? = some group) :
    leaf.name ∈ group.leafNames := by
  cases leaf <;> cases h <;> decide

theorem exists_of_mem_leafNames {group : Group} {name : String} (h : name ∈ group.leafNames) :
    ∃ leaf : Leaf, leaf.group? = some group ∧ leaf.name = name := by
  cases group with
  | server => exact ⟨.url, rfl, (List.mem_singleton.mp h).symm⟩
  | auth => exact ⟨.token, rfl, (List.mem_singleton.mp h).symm⟩
  | timing =>
    simp only [Group.leafNames, timingNames, List.mem_cons, List.not_mem_nil, or_false] at h
    rcases h with rfl | rfl | rfl | rfl
    · exact ⟨.reconnectDelay, rfl, rfl⟩
    · exact ⟨.resumeDelay, rfl, rfl⟩
    · exact ⟨.saveTimeout, rfl, rfl⟩
    · exact ⟨.errorTtl, rfl, rfl⟩

end Leaf

namespace Preferences

/-- What a leaf has. -/
def value (preferences : Preferences) : Leaf → Setting
  | .url => .text preferences.url
  | .token => (preferences.token.map Setting.text).getD .empty
  | .reconnectDelay => .integer preferences.reconnectDelay
  | .resumeDelay => .integer preferences.resumeDelay
  | .saveTimeout => .integer preferences.saveTimeout
  | .errorTtl => .integer preferences.errorTtl
  | .capabilities => .list (preferences.capabilities.map .text)

/-! ### Values of the right type -/

theorem text?_eq_some_iff {value : Setting} {s : String} :
    text? value = some s ↔ .text s = value := by
  cases value <;> simp [text?, eq_comm]

theorem optionalText?_eq_some_iff {value : Setting} {s : Option String} :
    optionalText? value = some s ↔ (s.map Setting.text).getD .empty = value := by
  cases value <;> cases s <;> simp [optionalText?, eq_comm]

theorem count?_eq_some_iff {value : Setting} {n : Nat} :
    count? value = some n ↔ n < Number.unsignedLimit ∧ .integer n = value := by
  cases value with
  | integer m =>
    simp only [count?, Bool.and_eq_true, decide_eq_true_eq, Option.ite_none_right_eq_some,
      Option.some.injEq, Setting.integer.injEq]
    omega
  | _ => simp [count?]

theorem texts?_eq_some_iff {value : Setting} {names : List String} :
    texts? value = some names ↔ .list (names.map .text) = value := by
  cases value with
  | list items =>
    rw [texts?, Setting.list.injEq]
    induction items generalizing names with
    | nil => cases names <;> simp
    | cons item items ih =>
      simp only [List.mapM_cons, Option.bind_eq_bind, Option.bind_eq_some_iff, text?_eq_some_iff]
      cases names with
      | nil => simp
      | cons first names =>
        simp only [Option.pure_def, Option.some.injEq, List.cons.injEq, List.map_cons, ih]
        constructor
        · rintro ⟨a, rfl, more, rfl, rfl, rfl⟩
          exact ⟨rfl, rfl⟩
        · rintro ⟨rfl, rfl⟩
          exact ⟨first, rfl, names, rfl, rfl, rfl⟩
  | _ => simp [texts?]

theorem isSome_optionalText?_iff {value : Setting} :
    (optionalText? value).isSome = true ↔ Leaf.token.Fits value := by
  cases value <;> simp [optionalText?, Leaf.Fits]

instance (leaf : Leaf) (value : Setting) : Decidable (leaf.Fits value) :=
  match leaf with
  | .url => decidable_of_iff _
      (Option.isSome_iff_exists.trans (exists_congr fun _ => text?_eq_some_iff.trans eq_comm))
  | .token => decidable_of_iff _ isSome_optionalText?_iff
  | .capabilities => decidable_of_iff _
      (Option.isSome_iff_exists.trans (exists_congr fun _ => texts?_eq_some_iff.trans eq_comm))
  | .reconnectDelay | .resumeDelay | .saveTimeout | .errorTtl => decidable_of_iff _
      (Option.isSome_iff_exists.trans
        (exists_congr fun _ => count?_eq_some_iff.trans (and_congr_right fun _ => eq_comm)))

/-- A leaf takes a value that fits it and has it then. -/
def Takes (preferences : Preferences) (leaf : Leaf) (value : Setting) : Prop :=
  leaf.Fits value ∧ preferences.value leaf = value

theorem takes_url_iff {preferences : Preferences} {value : Setting} :
    preferences.Takes .url value ↔ text? value = some preferences.url := by
  rw [text?_eq_some_iff]
  exact ⟨And.right, fun h => ⟨⟨_, h.symm⟩, h⟩⟩

theorem takes_token_iff {preferences : Preferences} {value : Setting} :
    preferences.Takes .token value ↔ optionalText? value = some preferences.token := by
  rw [optionalText?_eq_some_iff]
  refine ⟨And.right, fun h => ⟨?_, h⟩⟩
  cases token : preferences.token with
  | none => exact .inl (by simpa [token] using h.symm)
  | some s => exact .inr ⟨s, by simpa [token] using h.symm⟩

theorem takes_capabilities_iff {preferences : Preferences} {value : Setting} :
    preferences.Takes .capabilities value ↔ texts? value = some preferences.capabilities := by
  rw [texts?_eq_some_iff]
  exact ⟨And.right, fun h => ⟨⟨_, h.symm⟩, h⟩⟩

/-- The four times are taken alike. -/
theorem takes_count_iff {value : Setting} {n : Nat} :
    ((∃ m : Nat, m < Number.unsignedLimit ∧ value = .integer m) ∧ .integer n = value) ↔
      count? value = some n := by
  rw [count?_eq_some_iff]
  constructor
  · rintro ⟨⟨m, small, rfl⟩, same⟩
    obtain rfl : n = m := Int.ofNat.inj (Setting.integer.inj same)
    exact ⟨small, rfl⟩
  · rintro ⟨small, rfl⟩
    exact ⟨⟨n, small, rfl⟩, rfl⟩

theorem default_fits (leaf : Leaf) : leaf.Fits (default.value leaf) := by
  cases leaf with
  | url => exact ⟨_, rfl⟩
  | token => exact .inl rfl
  | capabilities => exact ⟨_, rfl⟩
  | _ => exact ⟨_, by decide, rfl⟩

/-- Values that fit their leaves are those of some preferences. -/
theorem exists_of_fits {values : Leaf → Setting} (fits : ∀ leaf : Leaf, leaf.Fits (values leaf)) :
    ∃ preferences : Preferences, ∀ leaf, preferences.value leaf = values leaf := by
  obtain ⟨url, isUrl⟩ := fits .url
  obtain ⟨token, isToken⟩ :
      ∃ token : Option String, (token.map Setting.text).getD .empty = values .token := by
    rcases fits .token with unset | ⟨s, set⟩
    · exact ⟨none, unset.symm⟩
    · exact ⟨some s, set.symm⟩
  obtain ⟨reconnectDelay, -, isReconnectDelay⟩ := fits .reconnectDelay
  obtain ⟨resumeDelay, -, isResumeDelay⟩ := fits .resumeDelay
  obtain ⟨saveTimeout, -, isSaveTimeout⟩ := fits .saveTimeout
  obtain ⟨errorTtl, -, isErrorTtl⟩ := fits .errorTtl
  obtain ⟨capabilities, isCapabilities⟩ := fits .capabilities
  refine ⟨⟨url, token, capabilities, reconnectDelay, resumeDelay, saveTimeout, errorTtl⟩, ?_⟩
  intro leaf
  cases leaf with
  | token => exact isToken
  | url => exact isUrl.symm
  | reconnectDelay => exact isReconnectDelay.symm
  | resumeDelay => exact isResumeDelay.symm
  | saveTimeout => exact isSaveTimeout.symm
  | errorTtl => exact isErrorTtl.symm
  | capabilities => exact isCapabilities.symm

/-! ### Reading a table of settings -/

theorem layer_at_leaf (preferences : Preferences) :
    ∃ root, preferences.layer = .table root ∧
      (∀ group : Group, ∃ entries, root.lookup group.name = some (.table entries) ∧
        ∀ leaf : Leaf, leaf.group? = some group →
          entries.lookup leaf.name = some (preferences.value leaf)) ∧
      root.lookup "capabilities" = some (preferences.value .capabilities) := by
  refine ⟨_, rfl, fun group => ?_, rfl⟩
  cases group <;> refine ⟨_, rfl, fun leaf h => ?_⟩ <;> cases leaf <;> cases h <;> rfl

/-- A missing setting is one that has its default. -/
theorem setting?_eq {α : Type} {decode : Setting → Option α} {value : Setting} {default : α}
    (h : decode value = some default) (entries : Entries) (name : String) :
    setting? entries name default decode = decode ((entries.lookup name).getD value) := by
  rw [setting?]
  cases entries.lookup name with
  | none => exact h.symm
  | some value => rfl

/-- Preferences from a table whose groups are settled: each leaf takes what is there, or its
    default. -/
theorem ofSetting?_eq_some_iff {root : Entries} {groups : Group → Entries}
    (read : ∀ group : Group,
      inner? .ignored root group.name group.leafNames = some (groups group))
    {preferences : Preferences} :
    ofSetting? .ignored (.table root) = some preferences ↔
      (∀ leaf group, leaf.group? = some group →
        preferences.Takes leaf
          (((groups group).lookup leaf.name).getD (default.value leaf))) ∧
      preferences.Takes .capabilities
        ((root.lookup "capabilities").getD (default.value .capabilities)) := by
  have server : inner? .ignored root "server" ["url"] = some (groups .server) := read .server
  have auth : inner? .ignored root "auth" ["token"] = some (groups .auth) := read .auth
  have timing : inner? .ignored root "timing" timingNames = some (groups .timing) := read .timing
  have url : text? (default.value .url) = some default.url := rfl
  have token : optionalText? (default.value .token) = some default.token := rfl
  have reconnectDelay : count? (default.value .reconnectDelay) = some default.reconnectDelay :=
    count?_eq_some_iff.mpr ⟨by decide, rfl⟩
  have resumeDelay : count? (default.value .resumeDelay) = some default.resumeDelay :=
    count?_eq_some_iff.mpr ⟨by decide, rfl⟩
  have saveTimeout : count? (default.value .saveTimeout) = some default.saveTimeout :=
    count?_eq_some_iff.mpr ⟨by decide, rfl⟩
  have errorTtl : count? (default.value .errorTtl) = some default.errorTtl :=
    count?_eq_some_iff.mpr ⟨by decide, rfl⟩
  have capabilities : texts? (default.value .capabilities) = some default.capabilities := rfl
  simp only [ofSetting?, group?, server, auth, timing, Option.bind_eq_bind, Option.bind_some,
    setting?_eq url, setting?_eq token, setting?_eq reconnectDelay, setting?_eq resumeDelay,
    setting?_eq saveTimeout, setting?_eq errorTtl, setting?_eq capabilities,
    Option.bind_eq_some_iff, Option.some.injEq]
  constructor
  · rintro ⟨_, isUrl, _, isToken, _, isReconnectDelay, _, isResumeDelay, _, isSaveTimeout, _,
      isErrorTtl, _, isCapabilities, rfl⟩
    refine ⟨fun leaf group h => ?_, takes_capabilities_iff.mpr isCapabilities⟩
    cases leaf with
    | url => cases h; exact takes_url_iff.mpr isUrl
    | token => cases h; exact takes_token_iff.mpr isToken
    | reconnectDelay => cases h; exact takes_count_iff.mpr isReconnectDelay
    | resumeDelay => cases h; exact takes_count_iff.mpr isResumeDelay
    | saveTimeout => cases h; exact takes_count_iff.mpr isSaveTimeout
    | errorTtl => cases h; exact takes_count_iff.mpr isErrorTtl
    | capabilities => cases h
  · rintro ⟨leaves, isCapabilities⟩
    exact ⟨_, takes_url_iff.mp (leaves .url _ rfl), _, takes_token_iff.mp (leaves .token _ rfl),
      _, takes_count_iff.mp (leaves .reconnectDelay _ rfl),
      _, takes_count_iff.mp (leaves .resumeDelay _ rfl),
      _, takes_count_iff.mp (leaves .saveTimeout _ rfl),
      _, takes_count_iff.mp (leaves .errorTtl _ rfl),
      _, takes_capabilities_iff.mp isCapabilities, rfl⟩

/-- A group that is refused refuses all. -/
theorem ofSetting?_eq_none {root : Entries} {group : Group}
    (refused : inner? .ignored root group.name group.leafNames = none) :
    ofSetting? .ignored (.table root) = none := by
  cases group <;> simp only [Group.name, Group.leafNames] at refused <;>
    simp [ofSetting?, group?, refused]

end Preferences
end Liveboard.Config
