import InterfaceSchemes.Proofs.FileTree
import InterfaceSchemes.Proofs.JsonSpelling
import InterfaceSchemes.Storage
import Mathlib.Data.List.Nodup

/-! # Documents of settings

A document of settings is an object that gives some of them by name. This file shows what such a
document means: the settings that it gives, however it spells them and in whatever order, and the
defaults for the others. It is followed up to the first key that is repeated or unknown.

* **`Json.objectMembers_listed`** — reading goes over the members of an object, one change after the
  other.
* **`Setting`**, **`Overrides`** — what a document can give, and all that one document gives.
* **`FileTree.readSettings_of_spelling`** — what a document means, in each of its spellings. -/

namespace InterfaceSchemes

/-! ## (1) Members of an object -/

namespace Json

/-- Items with a comma between them, and one before the first if it is not the `first` of all. -/
def listed : Bool → List (List Token) → List Token
  | _, [] => []
  | true, item :: items => item ++ listed false items
  | false, item :: items => .comma :: (item ++ listed false items)

/-- `listed first (item :: items)`: after the first item a comma stands before each. -/
theorem listed_cons (first : Bool) (item : List Token) (items : List (List Token)) :
    listed first (item :: items) = listed first [item] ++ listed false items := by
  cases first <;> simp [listed]

/-- Further items follow the ones before; only if there are none before can they be the first. -/
theorem listed_append (first : Bool) (items more : List (List Token)) :
    listed first (items ++ more)
      = listed first items ++ listed (first && items.isEmpty) more := by
  induction items generalizing first with
  | nil => simp [listed]
  | cons item items ih => cases first <;> simp [listed, ih]

/-- The tokens of a member. -/
def memberTokens (key : Text) (token : Token) : List Token := [.string key, .colon, token]

section

variable {σ : Type} {shape : List (Member σ)}

/-- **A member that is understood**: the shape has its key, and reads its value as a change. -/
def Reads (shape : List (Member σ)) (key : Text) (token : Token) (change : σ → σ) : Prop :=
  ∃ m, shape.find? (fun m => m.key == key) = some m ∧
    ∀ rest, ∃ hrest, m.read (token :: rest) = .ok (change, ⟨rest, hrest⟩)

/-- `nextKey` finds the key of the next member, behind its comma if there has to be one. -/
theorem nextKey_listed (first : Bool) (key : Text) (item : List Token) (rest : List Token) :
    ∃ hrest, nextKey first (listed first [.string key :: item] ++ rest)
      = .ok (.inl (key, ⟨item ++ rest, hrest⟩)) := by
  cases first
  · exact ⟨by simp only [listed, List.length_append, List.length_cons]; omega,
      by simp [listed, nextKey]⟩
  · exact ⟨by simp [listed], by simp [listed, nextKey]⟩

/-- **`objectMembers` on one member** makes one change, and its key has been seen. -/
theorem objectMembers_member {first : Bool} {seen : List Text} {value : σ} {key : Text}
    {token : Token} {change : σ → σ} (hreads : Reads shape key token change) (hseen : key ∉ seen)
    (tail : List Token) :
    (objectMembers shape first seen value
        (listed first [memberTokens key token] ++ tail)).map Prod.fst
      = (objectMembers shape false (key :: seen) (change value) tail).map Prod.fst := by
  obtain ⟨m, hfind, hread⟩ := hreads
  obtain ⟨hafter, hkey⟩ := nextKey_listed first key [.colon, token] tail
  obtain ⟨hrest, hvalue⟩ := hread tail
  have hmember : valueAfterKey m ([.colon, token] ++ tail)
      = .ok (change, ⟨tail, Nat.lt_succ_of_lt hrest⟩) := by
    simp only [List.cons_append, List.nil_append, valueAfterKey, hvalue]
  -- the key is found, it belongs to `m`, it is new, and its value is read
  rw [objectMembers, memberTokens, hkey]
  dsimp only
  rw [hfind]
  dsimp only
  rw [if_neg hseen, hmember]
  dsimp only
  cases objectMembers shape false (key :: seen) (change value) tail with
  | error fault => rfl
  | ok result => rfl

/-- **`objectMembers` on the members of an object** makes changes one after the other. The keys that
have been seen grow with them. -/
theorem objectMembers_listed {ι : Type} {key : ι → Text} {token : ι → Token} {change : ι → σ → σ}
    {given : List ι} (hreads : ∀ i ∈ given, Reads shape (key i) (token i) (change i))
    (hnodup : (given.map key).Nodup) {first : Bool} {seen : List Text}
    (hseen : ∀ i ∈ given, key i ∉ seen) (value : σ) (tail : List Token) :
    (objectMembers shape first seen value
        (listed first (given.map fun i => memberTokens (key i) (token i)) ++ tail)).map Prod.fst
      = (objectMembers shape (first && given.isEmpty) ((given.map key).reverse ++ seen)
          (given.foldl (fun value i => change i value) value) tail).map Prod.fst := by
  induction given generalizing first seen value with
  | nil => cases first <;> rfl
  | cons i given ih =>
    obtain ⟨hread, hreads⟩ := List.forall_mem_cons.mp hreads
    obtain ⟨hkey, hseen⟩ := List.forall_mem_cons.mp hseen
    obtain ⟨hfresh, hnodup⟩ := List.nodup_cons.mp hnodup
    rw [List.map_cons, listed_cons, List.append_assoc, objectMembers_member hread hkey]
    have hlater : ∀ j ∈ given, key j ∉ key i :: seen := by
      intro j hj hmem
      rcases List.mem_cons.mp hmem with heq | hmem
      · exact hfresh (heq ▸ List.mem_map_of_mem hj)
      · exact hseen j hj hmem
    have hrest := @ih hreads hnodup false (key i :: seen) hlater (change i value)
    simpa using hrest

/-- The closing brace ends the object. -/
theorem objectMembers_of_closeBrace (first : Bool) (seen : List Text) (value : σ)
    (tail : List Token) :
    (objectMembers shape first seen value (.closeBrace :: tail)).map Prod.fst = .ok value := by
  rw [objectMembers]
  cases first <;> rfl

/-- **`.unknownField key`**: an unknown key is a fault, whatever follows it. -/
theorem objectMembers_of_unknown {first : Bool} {seen : List Text} {value : σ} {key : Text}
    (hunknown : key ∉ shape.map Member.key) (tail : List Token) :
    objectMembers shape first seen value (listed first [[.string key]] ++ tail)
      = .error ⟨[.key key], .unknownField key (shape.map Member.key)⟩ := by
  have hfind : shape.find? (fun m => m.key == key) = none := by
    refine List.find?_eq_none.mpr fun m hm heq => hunknown ?_
    exact beq_iff_eq.mp heq ▸ List.mem_map_of_mem hm
  obtain ⟨hafter, hkey⟩ := nextKey_listed first key [] tail
  rw [objectMembers, hkey]
  dsimp only
  rw [hfind]

/-- **`.duplicateField key`**: a key that has been seen is a fault, whatever follows it. -/
theorem objectMembers_of_repeated {first : Bool} {seen : List Text} {value : σ} {key : Text}
    (hknown : key ∈ shape.map Member.key) (hseen : key ∈ seen) (tail : List Token) :
    objectMembers shape first seen value (listed first [[.string key]] ++ tail)
      = .error (faultHere (.duplicateField key)) := by
  have hsome : (shape.find? fun m => m.key == key).isSome := by
    obtain ⟨m, hm, heq⟩ := List.mem_map.mp hknown
    exact List.find?_isSome.mpr ⟨m, hm, beq_iff_eq.mpr heq⟩
  obtain ⟨found, hfind⟩ := Option.isSome_iff_exists.mp hsome
  obtain ⟨hafter, hkey⟩ := nextKey_listed first key [] tail
  rw [objectMembers, hkey]
  dsimp only
  rw [hfind]
  dsimp only
  rw [if_pos hseen]

end

end Json

/-! ## (2) What a document gives -/

/-- **One setting** as a document gives it. -/
inductive Setting where
  /-- The ending of the names of schemes. -/
  | schemeSuffix (value : Text)
  /-- The directory of output modules. -/
  | schemesDir (value : Text)
  /-- The mark in the names of output modules. -/
  | schemeInfix (value : Text)
  /-- Whether import paths lose their first dot. -/
  | stripLeadingDot (value : Bool)
  /-- Whether the validation library is imported. -/
  | zodImport (value : Bool)

namespace Setting

/-- The name under which it is given. -/
def key : Setting → Text
  | schemeSuffix _ => "schemeSuffix"
  | schemesDir _ => "schemesDir"
  | schemeInfix _ => "schemeInfix"
  | stripLeadingDot _ => "stripLeadingDot"
  | zodImport _ => "zodImport"

/-- The names of all settings. -/
def keys : List Text :=
  ["schemeSuffix", "schemesDir", "schemeInfix", "stripLeadingDot", "zodImport"]

/-- The token of its value. -/
def token : Setting → Json.Token
  | schemeSuffix value => .string value
  | schemesDir value => .string value
  | schemeInfix value => .string value
  | stripLeadingDot value => .boolean value
  | zodImport value => .boolean value

/-- The settings with this one changed. -/
def change : Setting → Settings → Settings
  | schemeSuffix value, s => { s with schemeSuffix := value }
  | schemesDir value, s => { s with schemesDir := value }
  | schemeInfix value, s => { s with schemeInfix := value }
  | stripLeadingDot value, s => { s with stripLeadingDot := value }
  | zodImport value, s => { s with zodImport := value }

/-- The tokens of an object that gives settings, in this order. -/
def objectTokens (given : List Setting) : List Json.Token :=
  .openBrace :: (Json.listed true (given.map fun g => Json.memberTokens g.key g.token)
    ++ [.closeBrace])

/-- The tokens of an object that gives settings and goes on with a further key. -/
def tokensUpTo (given : List Setting) (key : Text) : List Json.Token :=
  .openBrace :: Json.listed true
    ((given.map fun g => Json.memberTokens g.key g.token) ++ [[.string key]])

/-- `Json.Reads Settings.shape`: every setting is understood. -/
theorem reads (g : Setting) : Json.Reads Settings.shape g.key g.token g.change := by
  cases g <;> exact ⟨_, rfl, fun rest => ⟨_, rfl⟩⟩

/-- `h.change (g.change s) = g.change (h.change s)` for settings of different names. -/
theorem change_comm {g h : Setting} (hne : g.key ≠ h.key) (s : Settings) :
    h.change (g.change s) = g.change (h.change s) := by
  cases g <;> cases h <;> first | rfl | exact absurd rfl hne

end Setting

/-- **What a document gives**: any of the settings. -/
structure Overrides where
  /-- The ending of the names of schemes. -/
  schemeSuffix? : Option Text
  /-- The directory of output modules. -/
  schemesDir? : Option Text
  /-- The mark in the names of output modules. -/
  schemeInfix? : Option Text
  /-- Whether import paths lose their first dot. -/
  stripLeadingDot? : Option Bool
  /-- Whether the validation library is imported. -/
  zodImport? : Option Bool

namespace Overrides

/-- What is given, one by one. -/
def given (o : Overrides) : List Setting :=
  [o.schemeSuffix?.map Setting.schemeSuffix, o.schemesDir?.map Setting.schemesDir,
    o.schemeInfix?.map Setting.schemeInfix, o.stripLeadingDot?.map Setting.stripLeadingDot,
    o.zodImport?.map Setting.zodImport].filterMap id

/-- **What it means**: a setting that is not given has its default. -/
def settings (o : Overrides) : Settings where
  schemeSuffix := o.schemeSuffix?.getD "Scheme"
  schemesDir := o.schemesDir?.getD "schemes"
  schemeInfix := o.schemeInfix?.getD "scheme"
  stripLeadingDot := o.stripLeadingDot?.getD true
  zodImport := o.zodImport?.getD false

/-- Of settings that may be given or not, those that are have some of the names, in order. -/
theorem map_key_sublist {settings : List (Option Setting)} {keys : List Text}
    (hkeys : List.Forall₂ (fun setting? key => ∀ g ∈ setting?, Setting.key g = key) settings keys) :
    ((settings.filterMap id).map Setting.key).Sublist keys := by
  induction hkeys with
  | nil => exact List.Sublist.refl []
  | @cons setting? key settings keys hkey _ ih =>
    cases setting? with
    | none => exact ih.cons key
    | some g =>
      obtain rfl : g.key = key := hkey g rfl
      exact ih.cons_cons g.key

/-- `(given.map Setting.key).Nodup`: no setting is given twice, in whatever order they are. -/
theorem nodup_keys (o : Overrides) {given : List Setting} (hgiven : given.Perm o.given) :
    (given.map Setting.key).Nodup := by
  have hone : ∀ {α : Type} {setting : α → Setting} {key : Text} {value? : Option α},
      (∀ value, (setting value).key = key) → ∀ g ∈ value?.map setting, g.key = key := by
    intro α setting key value? hkey g hg
    obtain ⟨value, -, rfl⟩ := Option.map_eq_some_iff.mp hg
    exact hkey value
  have hall : (o.given.map Setting.key).Sublist Setting.keys :=
    map_key_sublist (.cons (hone fun _ => rfl) (.cons (hone fun _ => rfl) (.cons (hone fun _ => rfl)
      (.cons (hone fun _ => rfl) (.cons (hone fun _ => rfl) .nil)))))
  exact (hgiven.map Setting.key).nodup_iff.mpr (hall.nodup (by decide))

/-- **`o.settings`: one by one, the defaults become what is given**, in any order. -/
theorem foldl_change (o : Overrides) {given : List Setting} (hgiven : given.Perm o.given) :
    given.foldl (fun s g => g.change s) {} = o.settings := by
  have hcomm : ∀ g ∈ given, ∀ h ∈ given, ∀ s : Settings,
      h.change (g.change s) = g.change (h.change s) := by
    intro g hg h hh s
    by_cases hkey : g.key = h.key
    · rw [List.inj_on_of_nodup_map (o.nodup_keys hgiven) hg hh hkey]
    · exact Setting.change_comm hkey s
  rw [hgiven.foldl_eq' hcomm]
  -- in the order of `Overrides.given` each setting is given or keeps its default
  obtain ⟨suffix?, dir?, infix?, dot?, import?⟩ := o
  cases suffix? <;> cases dir? <;> cases infix? <;> cases dot? <;> cases import? <;> rfl

end Overrides

/-! ## (3) What a document means -/

namespace Settings

/-- `ofJson` reads the document of an object member by member. -/
theorem ofJson_of_tokens {document : Text} {ts : List Json.Token}
    (htokens : Json.tokens document = .openBrace :: ts) :
    ofJson document = (Json.objectMembers shape true [] {} ts).map Prod.fst := by
  rw [ofJson, Json.read, htokens, reader, Json.shaped]
  cases Json.objectMembers shape true [] {} ts with
  | error fault => rfl
  | ok result => rfl

variable {o : Overrides} {given : List Setting} {written : Text}

/-- **`ofJson (written ++ rest) = .ok o.settings`**: a document means what it gives, in each of its
spellings and whatever follows. -/
theorem ofJson_of_spelling (hgiven : given.Perm o.given)
    (hwritten : Json.Spelling (Setting.objectTokens given) written) (rest : Text) :
    ofJson (written ++ rest) = .ok o.settings := by
  have htokens := Json.tokens_of_spelling hwritten rest
  rw [Setting.objectTokens, List.cons_append, List.append_assoc] at htokens
  rw [ofJson_of_tokens htokens,
    Json.objectMembers_listed (fun g _ => g.reads) (o.nodup_keys hgiven) (by simp),
    o.foldl_change hgiven]
  exact Json.objectMembers_of_closeBrace _ _ _ _

/-- **`ofJson` ends at a key that is repeated or unknown**, whatever follows. -/
theorem ofJson_of_further_key (hgiven : given.Perm o.given) {key : Text}
    (hwritten : Json.Spelling (Setting.tokensUpTo given key) written)
    (hkey : key ∈ given.map Setting.key ∨ key ∉ Setting.keys) (rest : Text) :
    ofJson (written ++ rest) = .error (if key ∈ Setting.keys then ⟨[], .duplicateField key⟩
      else ⟨[.key key], .unknownField key Setting.keys⟩) := by
  have htokens := Json.tokens_of_spelling hwritten rest
  rw [Setting.tokensUpTo, List.cons_append, Json.listed_append, List.append_assoc,
    List.isEmpty_map] at htokens
  have hshape : shape.map Json.Member.key = Setting.keys := rfl
  rw [ofJson_of_tokens htokens,
    Json.objectMembers_listed (fun g _ => g.reads) (o.nodup_keys hgiven) (by simp)]
  by_cases hknown : key ∈ Setting.keys
  · have hseen : key ∈ (given.map Setting.key).reverse ++ [] := by
      simpa using hkey.resolve_right (not_not_intro hknown)
    rw [if_pos hknown, Json.objectMembers_of_repeated (hshape ▸ hknown) hseen]
    rfl
  · rw [if_neg hknown, Json.objectMembers_of_unknown (hshape ▸ hknown)]
    rfl

end Settings

/-- `t.readSettings path` is `Settings.ofJson` of the text of the document. -/
theorem FileTree.readSettings_of_readText {t : FileTree} {path document : Text}
    (hread : t.readText path = .ok document) :
    t.readSettings path = (Settings.ofJson document).mapError (Error.settings path) := by
  rw [readSettings, readInput, hread]
  rfl

/-- **`t.readSettings path` means what the document gives.** It gives some of the settings, in any
order, and is spelled in any way; what follows it is not looked at. The result has what is given and
the defaults for the rest. If a further key follows instead that has been given or that is unknown,
there is no result: the document has a fault, which names the key. -/
theorem FileTree.readSettings_of_spelling {t : FileTree} {path written rest : Text}
    (hread : t.readText path = .ok (written ++ rest)) {o : Overrides} {given : List Setting}
    (hgiven : given.Perm o.given) :
    (Json.Spelling (Setting.objectTokens given) written → t.readSettings path = .ok o.settings) ∧
    ∀ key, Json.Spelling (Setting.tokensUpTo given key) written →
      key ∈ given.map Setting.key ∨ key ∉ Setting.keys →
      ∃ error : Error, t.readSettings path = .error error ∧ error.kind = "config" ∧
        error = .settings path (if key ∈ Setting.keys then ⟨[], .duplicateField key⟩
          else ⟨[.key key], .unknownField key Setting.keys⟩) := by
  rw [readSettings_of_readText hread]
  refine ⟨fun hwritten => ?_, fun key hwritten hkey => ⟨_, ?_, ?_, rfl⟩⟩
  · rw [Settings.ofJson_of_spelling hgiven hwritten]
    rfl
  · rw [Settings.ofJson_of_further_key hgiven hwritten hkey]
    rfl
  · rfl

/-- Two documents. The first gives settings in another order than theirs, and spells one character by
two halves and another by a short escape; the second repeats a key that it spells in two ways. -/
def settingsFiles : FileTree :=
  ((FileTree.empty ["home"]).put ["home", "a.json"] (.file (Text.toBytes
      "\x7b \"zodImport\":true,\n\"schemesDir\" : \"\\uD83d\\uDE00\\/\"\x7d ..."))).put
    ["home", "b.json"] (.file (Text.toBytes "\x7b\"zodImport\":true,\"zod\\u0049mport\" ..."))

/-- The first document means what it gives, the second is refused. -/
theorem FileTree.readSettings_settingsFiles :
    settingsFiles.readSettings "a.json" = .ok { schemesDir := "😀/", zodImport := true } ∧
      ∃ error : Error,
        settingsFiles.readSettings "b.json" = .error error ∧ error.kind = "config" := by
  have hnone : Json.Blanks [] := by decide
  have hspace : Json.Blanks " " := by decide
  have hline : Json.Blanks "\n" := by decide
  have hzod : Json.TokenSpelling (.string "zodImport") _ :=
    .string (Json.PlainText.spelling (by decide))
  have hdir : Json.TokenSpelling (.string "schemesDir") _ :=
    .string (Json.PlainText.spelling (by decide))
  have hvalue : Json.TokenSpelling (.string "😀/") _ :=
    .string (.cons (.pair (by decide)
      ⟨'D', '8', '3', 'd', by decide, by decide, by decide, by decide, rfl⟩
      ⟨'D', 'E', '0', '0', by decide, by decide, by decide, by decide, rfl⟩)
      (.cons (.short (by decide : ('/', '/') ∈ Json.shortEscapes)) .nil))
  have hagain : Json.TokenSpelling (.string "zodImport") _ :=
    .string (.cons (.plain (by decide) (by decide) (by decide))
      (.cons (.plain (by decide) (by decide) (by decide))
      (.cons (.plain (by decide) (by decide) (by decide))
      (.cons (.unit ⟨'0', '0', '4', '9', by decide, by decide, by decide, by decide, rfl⟩)
        (Json.PlainText.spelling (s := "mport") (by decide))))))
  have hfirst : Json.Spelling (Setting.objectTokens [.zodImport true, .schemesDir "😀/"]) _ :=
    .cons hnone .openBrace (.cons hspace hzod (.cons hnone .colon (.cons hnone .true
      (.cons hnone .comma (.cons hline hdir (.cons hspace .colon (.cons hspace hvalue
        (.cons hnone .closeBrace .nil))))))))
  have hsecond : Json.Spelling (Setting.tokensUpTo [.zodImport true] "zodImport") _ :=
    .cons hnone .openBrace (.cons hnone hzod (.cons hnone .colon (.cons hnone .true
      (.cons hnone .comma (.cons hnone hagain .nil)))))
  constructor
  · refine (@readSettings_of_spelling settingsFiles "a.json" _ " ..." ?_
      ⟨none, some "😀/", none, none, some true⟩ _ (.swap _ _ _)).1 hfirst
    exact readText_eq_ok_iff.mpr ⟨["home", "a.json"], _, rfl, Text.ofBytes?_toBytes _⟩
  · have hrefused := fun hread => (@readSettings_of_spelling settingsFiles "b.json" _ " ..." hread
      ⟨none, none, none, none, some true⟩ _ (.refl _)).2 "zodImport" hsecond (Or.inl (by decide))
    obtain ⟨error, herror, hkind, -⟩ := hrefused
      (readText_eq_ok_iff.mpr ⟨["home", "b.json"], _, rfl, Text.ofBytes?_toBytes _⟩)
    exact ⟨error, herror, hkind⟩

end InterfaceSchemes
