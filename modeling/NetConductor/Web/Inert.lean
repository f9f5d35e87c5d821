import NetConductor.Remote.TerminalInput
import NetConductor.Server.MappingTable
import NetConductor.Web.Page

/-! Whatever devices are called and report, the page has no tags but its own, and
its buttons act on the devices and mappings on record. Only the sizes in a
device's listing of files are not escaped. -/
namespace NetConductor
open GoText Durable Transition

namespace WebPage
open Markup

/-- The elements of the page's templates. -/
def tagNames : List String :=
  ["div", "span", "small", "strong", "section", "h1", "h2", "p", "table", "thead", "tbody", "tr",
   "th", "td", "button", "svg", "rect", "path", "i", "time", "label", "select", "option", "input",
   "form", "header", "aside", "nav", "footer", "main", "br"]

/-- Their attributes: none that runs a script or loads anything. -/
def attrNames : List String :=
  ["class", "id", "title", "role", "data-tab", "data-action", "data-id", "data-index", "disabled",
   "viewbox", "aria-hidden", "x", "y", "width", "height", "rx", "d", "name", "type", "value",
   "required", "maxlength", "min", "max", "selected"]

def actions : List String :=
  ["logout", "close-dialog", "enroll", "mapping", "ssh", "files", "desktop", "device", "policy",
   "delete-map"]

/-- A tag that the page means to write. -/
structure Own (ids : List String) (t : Tag Char) : Prop where
  name : String.ofList t.name ∈ tagNames
  attrs : ∀ a ∈ t.attrs, String.ofList a.1 ∈ attrNames
  action : ∀ a ∈ t.attrs, String.ofList a.1 = "data-action" → String.ofList a.2 ∈ actions
  target : ∀ a ∈ t.attrs, String.ofList a.1 = "data-id" → String.ofList a.2 ∈ ids

-- the same names character by character, for the checks of the templates

def tagChars : List (List Char) :=
  [['d', 'i', 'v'], ['s', 'p', 'a', 'n'], ['s', 'm', 'a', 'l', 'l'],
   ['s', 't', 'r', 'o', 'n', 'g'], ['s', 'e', 'c', 't', 'i', 'o', 'n'], ['h', '1'], ['h', '2'],
   ['p'], ['t', 'a', 'b', 'l', 'e'], ['t', 'h', 'e', 'a', 'd'], ['t', 'b', 'o', 'd', 'y'],
   ['t', 'r'], ['t', 'h'], ['t', 'd'], ['b', 'u', 't', 't', 'o', 'n'], ['s', 'v', 'g'],
   ['r', 'e', 'c', 't'], ['p', 'a', 't', 'h'], ['i'], ['t', 'i', 'm', 'e'],
   ['l', 'a', 'b', 'e', 'l'], ['s', 'e', 'l', 'e', 'c', 't'], ['o', 'p', 't', 'i', 'o', 'n'],
   ['i', 'n', 'p', 'u', 't'], ['f', 'o', 'r', 'm'], ['h', 'e', 'a', 'd', 'e', 'r'],
   ['a', 's', 'i', 'd', 'e'], ['n', 'a', 'v'], ['f', 'o', 'o', 't', 'e', 'r'],
   ['m', 'a', 'i', 'n'], ['b', 'r']]

def attrChars : List (List Char) :=
  [['c', 'l', 'a', 's', 's'], ['i', 'd'], ['t', 'i', 't', 'l', 'e'], ['r', 'o', 'l', 'e'],
   ['d', 'a', 't', 'a', '-', 't', 'a', 'b'],
   ['d', 'a', 't', 'a', '-', 'a', 'c', 't', 'i', 'o', 'n'], ['d', 'a', 't', 'a', '-', 'i', 'd'],
   ['d', 'a', 't', 'a', '-', 'i', 'n', 'd', 'e', 'x'], ['d', 'i', 's', 'a', 'b', 'l', 'e', 'd'],
   ['v', 'i', 'e', 'w', 'b', 'o', 'x'], ['a', 'r', 'i', 'a', '-', 'h', 'i', 'd', 'd', 'e', 'n'],
   ['x'], ['y'], ['w', 'i', 'd', 't', 'h'], ['h', 'e', 'i', 'g', 'h', 't'], ['r', 'x'], ['d'],
   ['n', 'a', 'm', 'e'], ['t', 'y', 'p', 'e'], ['v', 'a', 'l', 'u', 'e'],
   ['r', 'e', 'q', 'u', 'i', 'r', 'e', 'd'], ['m', 'a', 'x', 'l', 'e', 'n', 'g', 't', 'h'],
   ['m', 'i', 'n'], ['m', 'a', 'x'], ['s', 'e', 'l', 'e', 'c', 't', 'e', 'd']]

def actionChars : List (List Char) :=
  [['l', 'o', 'g', 'o', 'u', 't'], ['c', 'l', 'o', 's', 'e', '-', 'd', 'i', 'a', 'l', 'o', 'g'],
   ['e', 'n', 'r', 'o', 'l', 'l'], ['m', 'a', 'p', 'p', 'i', 'n', 'g'], ['s', 's', 'h'],
   ['f', 'i', 'l', 'e', 's'], ['d', 'e', 's', 'k', 't', 'o', 'p'], ['d', 'e', 'v', 'i', 'c', 'e'],
   ['p', 'o', 'l', 'i', 'c', 'y'], ['d', 'e', 'l', 'e', 't', 'e', '-', 'm', 'a', 'p']]

def actionAttr : List Char := ['d', 'a', 't', 'a', '-', 'a', 'c', 't', 'i', 'o', 'n']

def idAttr : List Char := ['d', 'a', 't', 'a', '-', 'i', 'd']

theorem ofList_tagChars : tagChars.map String.ofList = tagNames := rfl

theorem ofList_attrChars : attrChars.map String.ofList = attrNames := rfl

theorem ofList_actionChars : actionChars.map String.ofList = actions := rfl

/-- The same of a template, in which an id is a hole for one. -/
def ownTag (t : Tag (Char ⊕ Kind)) : Bool :=
  t.name ∈ tagChars && t.attrs.all fun a =>
    a.1 ∈ attrChars &&
    (a.1 ≠ actionAttr || actionChars.any fun v => a.2 = v.map .inl) &&
    (a.1 ≠ idAttr || a.2 = [.inr .id])

/-- A hole that holds what its kind says. -/
def Meets (ids : List String) (x : Hole Kind) : Prop :=
  match x.kind with
  | .text => x.written = escape x.shown
  | .id => x.written = x.shown ∧ String.ofList x.shown ∈ ids
  | .word => x.written = x.shown ∧ Plain (String.ofList x.shown)

def skeleton (h : Html) : List (Piece Kind) := h.map (Piece.map Hole.kind)

structure Sound (ids : List String) (h : Html) : Prop where
  admitted : Admits ownTag (skeleton h) = true
  meets : ∀ x ∈ holes h, Meets ids x

/-- A plain text shows itself. -/
theorem Plain.shows {s : String} (h : Plain s) : Shows s.toList s.toList :=
  shows_plain fun c hc hMem => h c hc (by
    simp only [List.mem_cons, List.not_mem_nil, or_false] at hMem ⊢
    tauto)

/-- And so it does within quotes. -/
theorem Plain.value {s : String} (h : Plain s) : s.toList.map inValue = s.toList := by
  have hSame : s.toList.map inValue = s.toList.map id := List.map_congr_left fun c hc =>
    if_neg fun hNull => h c hc (by simp [hNull])
  rw [hSame, List.map_id]

/-- What stands in a hole shows what was put there. -/
theorem Meets.shows {ids : List String} (hIds : ∀ id ∈ ids, Plain id) {x : Hole Kind}
    (h : Meets ids x) : Shows x.written x.shown := by
  unfold Meets at h
  split at h
  · rw [h]
    exact shows_escape x.shown
  · rw [h.1]
    simpa using (hIds _ h.2).shows
  · rw [h.1]
    simpa using h.2.shows

/-- A tag of the filled page is the page's own if it is one of the template. -/
theorem own_of_ownTag {ids : List String} (hIds : ∀ id ∈ ids, Plain id) {h : Html}
    (hMeets : ∀ x ∈ holes h, Meets ids x) {own : Tag (Char ⊕ {x // x ∈ holes h})}
    (hOwn : ownTag (own.fill (.ofMap (Sum.map id fun x => x.1.kind))) = true) :
    Own ids ((own.fill (.ofMap (Sum.map id Subtype.val))).fill contents) := by
  simp only [ownTag, Tag.fill, List.all_map, Bool.and_eq_true, List.all_eq_true,
    Function.comp_apply, Bool.or_eq_true, decide_eq_true_eq] at hOwn
  obtain ⟨hName, hAttrs⟩ := hOwn
  have hAttr : ∀ a ∈ ((own.fill (.ofMap (Sum.map id Subtype.val))).fill contents).attrs,
      ∃ a₀ ∈ own.attrs, a = (a₀.1, (a₀.2.map (Sum.map id Subtype.val)).flatMap contents.value) := by
    intro a ha
    simp only [Tag.fill, List.map_map, List.mem_map, Function.comp_apply,
      Filling.flatMap_ofMap] at ha
    obtain ⟨a₀, ha₀, rfl⟩ := ha
    exact ⟨a₀, ha₀, rfl⟩
  constructor
  · rw [← ofList_tagChars]
    exact List.mem_map_of_mem (of_decide_eq_true hName)
  · intro a ha
    obtain ⟨a₀, ha₀, rfl⟩ := hAttr a ha
    rw [← ofList_attrChars]
    exact List.mem_map_of_mem (hAttrs a₀ ha₀).1.1
  · intro a ha hData
    obtain ⟨a₀, ha₀, rfl⟩ := hAttr a ha
    have hName : a₀.1 = actionAttr := String.ofList_injective hData
    have hAction := (hAttrs a₀ ha₀).1.2.resolve_left (by simp [hName])
    simp only [Filling.flatMap_ofMap, List.any_eq_true, decide_eq_true_eq] at hAction
    obtain ⟨w, hw, hSame⟩ := hAction
    rw [eq_map_inl hSame, ← ofList_actionChars]
    refine List.mem_map.mpr ⟨w, hw, ?_⟩
    simp [contents, List.flatMap_map]
  · intro a ha hData
    obtain ⟨a₀, ha₀, rfl⟩ := hAttr a ha
    have hName : a₀.1 = idAttr := String.ofList_injective hData
    have hTarget := (hAttrs a₀ ha₀).2.resolve_left (by simp [hName])
    rw [Filling.flatMap_ofMap, List.map_eq_singleton_iff] at hTarget
    obtain ⟨v, hValue, hKind⟩ := hTarget
    cases v with
    | inl c => cases hKind
    | inr x =>
        have hId : x.1.kind = .id := Sum.inr.inj hKind
        have hMeets := hMeets x.1 x.2
        simp only [Meets, hId] at hMeets
        have hPlain := (hIds _ hMeets.2).value
        rw [String.toList_ofList] at hPlain
        simpa [hValue, contents, hPlain] using hMeets.2

/-- Sound markup is read as the page's own tags. -/
theorem Sound.tags {ids : List String} (hIds : ∀ id ∈ ids, Plain id) {h : Html}
    (hSound : Sound ids h) : ∃ tokens, Markup.read id .data (render h) = some (.data, tokens) ∧
      ∀ t, .tag t ∈ tokens → Own ids t := by
  obtain ⟨tokens, hRead, hTags⟩ := tags_of_admits hSound.admitted
    fun x hx => (hSound.meets x hx).shows hIds
  refine ⟨tokens, hRead, fun t ht => ?_⟩
  obtain ⟨own, hOwn, rfl⟩ := hTags t ht
  exact own_of_ownTag hIds hSound.meets hOwn

/-! ### Building sound markup -/

section Building

variable {ids : List String} {g h : Html}

theorem holes_append (g h : Html) : holes (g ++ h) = holes g ++ holes h := List.filterMap_append

theorem sound_nil : Sound ids [] := ⟨rfl, fun x hx => by cases hx⟩

/-- Two sound parts are one. -/
theorem Sound.append (hg : Sound ids g) (hh : Sound ids h) : Sound ids (g ++ h) where
  admitted := by
    rw [skeleton, List.map_append]
    exact admits_append hg.admitted hh.admitted
  meets x hx := by
    rw [holes_append, List.mem_append] at hx
    exact hx.elim (hg.meets x) (hh.meets x)

/-- The parts for all of a list are sound when each of them is. -/
theorem sound_flatMap {α : Type} {l : List α} {f : α → Html} (h : ∀ a ∈ l, Sound ids (f a)) :
    Sound ids (l.flatMap f) := by
  induction l with
  | nil => exact sound_nil
  | cons a l ih =>
      obtain ⟨hFirst, hRest⟩ := List.forall_mem_cons.mp h
      exact hFirst.append (ih hRest)

/-- A choice between two parts is sound when the part chosen is. -/
theorem sound_ite {c : Prop} [Decidable c] (hg : c → Sound ids g) (hh : ¬c → Sound ids h) :
    Sound ids (if c then g else h) := by
  split_ifs with hc
  · exact hg hc
  · exact hh hc

/-- A template without conditions is checked once, whatever is in its holes. -/
theorem sound_of_spelled {spelled : List (Piece Kind)} (hSpelled : Spelled (skeleton h) spelled)
    (hAdmits : Admits ownTag spelled = true) (hMeets : ∀ x ∈ holes h, Meets ids x) :
    Sound ids h :=
  ⟨hSpelled.eq ▸ hAdmits, hMeets⟩

/-- A template of one string is sound when its tags are admitted. -/
theorem sound_lit {l : List Char} (h : Admits ownTag [.lit l] = true) :
    Sound ids (lit (String.ofList l)) :=
  sound_of_spelled (.lit .nil) h fun x hx => by cases hx

/-- An escaped text is sound, whatever it is. -/
theorem sound_esc (s : String) : Sound ids (esc s) :=
  ⟨rfl, fun x hx => by
    obtain rfl := List.mem_singleton.mp hx
    rfl⟩

/-- A plain one needs no escaping. -/
theorem sound_word {s : String} (h : Plain s) : Sound ids (word s) :=
  ⟨rfl, fun x hx => by
    obtain rfl := List.mem_singleton.mp hx
    exact ⟨rfl, by rwa [String.ofList_toList]⟩⟩

/-- A text without the five characters is plain. -/
theorem plain_lit {l : List Char} (h : (l.all fun c => c ∉ ['&', '<', '"', '\'', '\x00']) = true) :
    Plain (String.ofList l) := fun c hc => by
  rw [String.toList_ofList] at hc
  exact of_decide_eq_true (List.all_eq_true.mp h c hc)

/-- Two plain texts in a row are plain. -/
theorem plain_append {s t : String} (hs : Plain s) (ht : Plain t) : Plain (s ++ t) := fun c hc => by
  rw [String.toList_append, List.mem_append] at hc
  exact hc.elim (hs c) (ht c)

/-- A text is plain when its characters are of a kind that has none of the five. -/
theorem plain_of_forall {s : String} {P : Char → Prop} (h : ∀ c ∈ s.toList, P c) (hAmp : ¬P '&')
    (hLess : ¬P '<') (hQuote : ¬P '"') (hApostrophe : ¬P '\'') (hNull : ¬P '\x00') : Plain s := by
  intro c hc hMem
  have hP := h c hc
  simp only [List.mem_cons, List.not_mem_nil, or_false] at hMem
  rcases hMem with rfl | rfl | rfl | rfl | rfl
  · exact hAmp hP
  · exact hLess hP
  · exact hQuote hP
  · exact hApostrophe hP
  · exact hNull hP

/-- A number is plain. -/
theorem plain_fmtInt (n : Int) : Plain (fmtInt n) := by
  refine plain_of_forall (P := fun c => c = '-' ∨ c.isDigit = true) (fun c hc => ?_) (by decide)
    (by decide) (by decide) (by decide) (by decide)
  cases n with
  | ofNat k => exact .inr (isDigit_of_mem_toString hc)
  | negSucc k =>
      have hChars : c ∈ '-' :: (toString (k + 1)).toList := by
        change c ∈ ("-" ++ toString (k + 1)).toList at hc
        rwa [String.toList_append] at hc
      exact (List.mem_cons.mp hChars).imp_right isDigit_of_mem_toString

/-- A number is sound. -/
theorem sound_number (n : Int) : Sound ids (number n) := sound_word (plain_fmtInt n)

/-- A badge, by its state. -/
theorem sound_badge (on : Bool) (text : String) : Sound ids (badge on text) := by
  have hMeets : ∀ x ∈ holes (badge on text), Meets ids x := (sound_esc _).meets
  cases on
  · exact sound_of_spelled (.lit (.lit (.lit (.hole Kind.text rfl (.lit .nil))))) rfl
      hMeets
  · exact sound_of_spelled (.lit (.lit (.lit (.hole Kind.text rfl (.lit .nil))))) rfl
      hMeets

/-- An icon. -/
theorem sound_icon (name : String) : Sound ids (icon name) := by
  unfold icon
  split
  all_goals
    repeat' with_reducible apply Sound.append
    all_goals exact sound_lit rfl

theorem sound_ico (name : String) : Sound ids (ico name) :=
  ((sound_lit rfl).append (sound_icon name)).append (sound_lit rfl)

/-- A button with its opening, further attributes and label. -/
def buttonTag (o a l : List Char) : List (Piece Kind) :=
  [.lit o, .hole .id, .lit ['"'], .lit a, .lit ['>'], .lit l,
   .lit ['<', '/', 'b', 'u', 't', 't', 'o', 'n', '>']]

/-- A button is sound when its tag is admitted and its id is known. -/
theorem sound_button {o a l : List Char} {id : String} (hId : id ∈ ids)
    (h : Admits ownTag (buttonTag o a l) = true) :
    Sound ids (button (String.ofList o) id (String.ofList a) (String.ofList l)) :=
  sound_of_spelled (.lit (.hole Kind.id rfl (.lit (.lit (.lit (.lit (.lit .nil))))))) h
    fun x hx => by
      obtain rfl := List.mem_singleton.mp hx
      exact ⟨rfl, by rwa [String.ofList_toList]⟩

/-- A panel is sound when its parts are. -/
theorem sound_panel {title subtitle : String} {body action : Html} (hTitle : Plain title)
    (hBody : Sound ids body) (hAction : Sound ids action) (hSubtitle : Plain subtitle) :
    Sound ids (panel title body action subtitle) := by
  unfold panel
  repeat' with_reducible apply Sound.append
  any_goals exact sound_lit rfl
  · exact sound_word hTitle
  · refine sound_ite (fun _ => ?_) fun _ => sound_nil
    exact ((sound_lit rfl).append (sound_word hSubtitle)).append
      (sound_lit rfl)
  · exact hAction
  · exact hBody

/-- A tile of the overview is sound. -/
theorem sound_stat {title sub name : String} {value : Html} (hTitle : Plain title)
    (hValue : Sound ids value) (hSub : Plain sub) : Sound ids (stat title value sub name) := by
  unfold stat
  repeat' with_reducible apply Sound.append
  any_goals exact sound_lit rfl
  · exact sound_word hTitle
  · exact hValue
  · exact sound_word hSub
  · exact sound_ico name

variable {b : Browser} {s : Snapshot}

/-- A date as the browser writes it. -/
theorem plain_date (t : Time) : Plain (date b t) := by
  unfold date
  split_ifs
  · exact plain_lit rfl
  · exact b.plain_dateTime t

/-- The list of events is sound. -/
theorem sound_events (tab : Tab) : Sound ids (events b s tab) := by
  refine sound_ite (fun _ => sound_lit rfl) fun _ => sound_flatMap fun e _ => ?_
  unfold event
  repeat' with_reducible apply Sound.append
  any_goals exact sound_lit rfl
  · exact sound_word (plain_date e.at_)
  · exact sound_esc e.action
  · exact sound_esc e.detail

/-! ### The device table -/

/-- The details of a device. -/
theorem sound_deviceDetails (d : Device) : Sound ids (deviceDetails b d) := by
  unfold deviceDetails
  repeat' with_reducible apply Sound.append
  any_goals exact sound_lit rfl
  · exact sound_ite (fun _ => (sound_number _).append (sound_lit rfl))
      fun _ => sound_lit rfl
  · exact sound_ite (fun _ => (sound_lit rfl).append (sound_esc _))
      fun _ => sound_lit rfl
  · exact sound_word (b.plain_bytes d.tx)
  · exact sound_word (b.plain_bytes d.rx)
  · exact sound_ite (fun _ => (sound_lit rfl).append (sound_word (b.plain_unixTime _)))
      fun _ => sound_lit rfl
  · exact sound_ite (fun _ => sound_badge _ _) fun _ => sound_lit rfl
  · exact sound_ite (fun _ => ((sound_esc _).append (sound_lit rfl)).append
      (sound_number _)) fun _ => sound_nil

/-- A row of the devices, whose buttons act on that device. -/
theorem sound_deviceRow {d : Device} (hId : d.id ∈ ids) (compact : Bool) :
    Sound ids (deviceRow b compact d) := by
  unfold deviceRow
  repeat' with_reducible apply Sound.append
  any_goals exact sound_lit rfl
  · exact sound_esc d.name
  · exact sound_esc d.ip
  · exact sound_esc d.os
  · exact sound_badge _ _
  · exact sound_ite (fun _ => sound_nil) fun _ => sound_deviceDetails d
  · split_ifs <;> exact sound_button hId rfl
  · unfold remoteAttrs
    split_ifs <;> exact sound_button hId rfl
  · refine sound_ite (fun _ => ?_) fun _ => sound_nil
    unfold remoteAttrs
    split_ifs <;> exact sound_button hId rfl
  · exact sound_ite (fun _ => sound_nil) fun _ => sound_button hId rfl

/-- The table of the devices is sound. -/
theorem sound_deviceTable (hIds : ∀ d ∈ s.state.devices, d.id ∈ ids) (compact : Bool) :
    Sound ids (deviceTable b s compact) := by
  unfold deviceTable
  repeat' with_reducible apply Sound.append
  any_goals exact sound_lit rfl
  · exact sound_ite (fun _ => sound_nil) fun _ => sound_lit rfl
  · exact sound_flatMap fun d hd => sound_deviceRow (hIds d hd) compact

/-! ### The other pages -/

/-- A device in the picture of the network. -/
theorem sound_node (d : Device) : Sound ids (node d) := by
  unfold node
  repeat' with_reducible apply Sound.append
  any_goals exact sound_lit rfl
  · exact sound_ico "devices"
  · exact sound_esc d.name
  · exact sound_esc d.ip
  · split_ifs <;> exact sound_lit rfl

/-- The map of the network is sound. -/
theorem sound_topology : Sound ids (topology s) := by
  unfold topology
  repeat' with_reducible apply Sound.append
  any_goals exact sound_lit rfl
  · exact sound_ico "cloud"
  · exact sound_esc s.serverIP
  · split
    · exact sound_lit rfl
    · exact sound_flatMap fun d _ => sound_node d

theorem sound_count {α : Type} (l : List α) : Sound ids (count l) := sound_number l.length

theorem sound_enroll : Sound ids enroll := sound_lit rfl

/-- The first page. -/
theorem sound_home (hIds : ∀ d ∈ s.state.devices, d.id ∈ ids) : Sound ids (home b s) := by
  have hStat : ∀ {title sub : List Char} {α : Type} (l : List α) (name : String),
      (title.all fun c => c ∉ ['&', '<', '"', '\'', '\x00']) = true →
      (sub.all fun c => c ∉ ['&', '<', '"', '\'', '\x00']) = true →
      Sound ids (stat (String.ofList title) (count l) (String.ofList sub) name) :=
    fun l name hTitle hSub => sound_stat (plain_lit hTitle) (sound_count l) (plain_lit hSub)
  unfold home
  repeat' with_reducible apply Sound.append
  any_goals exact sound_lit rfl
  · refine sound_stat (plain_lit rfl) ?_ (plain_lit rfl)
    exact (((sound_count _).append (sound_lit rfl)).append (sound_count _)).append
      (sound_lit rfl)
  · exact hStat _ _ rfl rfl
  · exact hStat _ _ rfl rfl
  · exact hStat _ _ rfl rfl
  · exact sound_panel (plain_lit rfl) sound_topology sound_enroll
      (plain_lit rfl)
  · exact sound_panel (plain_lit rfl) (sound_deviceTable hIds true) sound_nil
      (plain_lit rfl)
  · exact sound_panel (plain_lit rfl) (sound_events .home) sound_nil
      (plain_lit rfl)

/-- Parts with a separator in between. -/
theorem sound_joined {sep : Html} (hSep : Sound ids sep) {l : List Html}
    (h : ∀ x ∈ l, Sound ids x) : Sound ids (joined sep l) := by
  fun_induction joined sep l with
  | case1 => exact sound_nil
  | case2 x => exact h x List.mem_cons_self
  | case3 x rest hRest ih =>
      obtain ⟨hFirst, hLater⟩ := List.forall_mem_cons.mp h
      exact (hFirst.append hSep).append (ih hLater)

/-- The list of exits is sound. -/
theorem sound_exits (p : Option Policy) : Sound ids (exits s p) := by
  unfold exits
  split
  · exact sound_lit rfl
  · exact sound_lit rfl
  · refine sound_joined (sound_lit rfl) fun x hx => ?_
    obtain ⟨id, -, rfl⟩ := List.mem_map.mp hx
    exact ((sound_lit rfl).append (sound_esc _)).append
      (sound_lit rfl)

/-- A row of the policies. -/
theorem sound_policyRow {d : Device} (hId : d.id ∈ ids) : Sound ids (policyRow s d) := by
  unfold policyRow
  repeat' with_reducible apply Sound.append
  any_goals exact sound_lit rfl
  · exact sound_esc d.name
  · exact sound_esc d.ip
  · exact sound_exits _
  · exact sound_esc _
  · split_ifs <;> exact sound_lit rfl
  · exact sound_button hId rfl

set_option maxRecDepth 4000 in
/-- The page of the policies. -/
theorem sound_proxy (hIds : ∀ d ∈ s.state.devices, d.id ∈ ids) : Sound ids (proxy s) := by
  have hTable : Sound ids (s.state.devices.flatMap (policyRow s)) :=
    sound_flatMap fun d hd => sound_policyRow (hIds d hd)
  unfold proxy
  repeat' with_reducible apply Sound.append
  any_goals exact sound_lit rfl
  refine sound_panel (plain_lit rfl) ?_ sound_nil (plain_lit rfl)
  repeat' with_reducible apply Sound.append
  any_goals exact sound_lit rfl
  exact hTable

/-- A row of the mappings, whose button deletes that mapping. -/
theorem sound_mappingRow {m : Mapping} (hId : m.id ∈ ids) (hProtocol : Plain m.protocol.toUpper) :
    Sound ids (mappingRow s m) := by
  unfold mappingRow
  repeat' with_reducible apply Sound.append
  any_goals exact sound_lit rfl
  · exact sound_esc m.name
  · exact sound_word hProtocol
  · exact sound_esc _
  · exact sound_number _
  · exact sound_esc _
  · exact sound_esc _
  · exact sound_number _
  · exact sound_badge _ _
  · exact sound_ite (fun _ => ((sound_lit rfl).append (sound_esc _)).append
      (sound_lit rfl)) fun _ => sound_nil
  · exact sound_button hId rfl

set_option maxRecDepth 4000 in
/-- The page of the mappings. -/
theorem sound_maps (hMaps : ∀ m ∈ s.state.mappings, m.id ∈ ids ∧ Plain m.protocol.toUpper) :
    Sound ids (maps s) := by
  have hTable : Sound ids (s.state.mappings.flatMap (mappingRow s)) :=
    sound_flatMap fun m hm => sound_mappingRow (hMaps m hm).1 (hMaps m hm).2
  unfold maps
  repeat' with_reducible apply Sound.append
  any_goals exact sound_lit rfl
  refine sound_panel (plain_lit rfl) (sound_ite (fun _ => ?_) fun _ => sound_lit rfl)
    (sound_lit rfl) (plain_lit rfl)
  repeat' with_reducible apply Sound.append
  any_goals exact sound_lit rfl
  exact hTable

/-- Every page. -/
theorem sound_content (hIds : ∀ d ∈ s.state.devices, d.id ∈ ids)
    (hMaps : ∀ m ∈ s.state.mappings, m.id ∈ ids ∧ Plain m.protocol.toUpper) (tab : Tab) :
    Sound ids (content b s tab) := by
  cases tab with
  | home => exact sound_home hIds
  | devices =>
      exact sound_panel (plain_lit rfl) (sound_deviceTable hIds false) sound_enroll
        (plain_lit rfl)
  | proxy => exact sound_proxy hIds
  | maps => exact sound_maps hMaps
  | logs =>
      exact sound_panel (plain_lit rfl) (sound_events .logs) sound_nil
        (plain_lit rfl)

/-- A button of the menu. -/
theorem sound_navButton (tab n : Tab) : Sound ids (navButton tab n) := by
  have hOpening : Sound ids (lit "<button data-tab=\"" ++ lit n.key ++ lit "\" class=\"" ++
      lit (if tab = n then "active" else "") ++ lit "\">") := by
    cases n <;> split_ifs <;>
      exact sound_of_spelled (.lit (.lit (.lit (.lit (.lit .nil))))) rfl
        fun x hx => by cases hx
  have hName : Sound ids (lit n.name) := by cases n <;> exact sound_lit rfl
  exact (((hOpening.append (sound_ico n.key)).append (sound_lit rfl)).append
    hName).append (sound_lit rfl)

/-- The frame around each tab is sound. -/
theorem sound_shell (tab : Tab) : Sound ids (shell tab) := by
  unfold shell
  repeat' with_reducible apply Sound.append
  any_goals exact sound_lit rfl
  · exact sound_flatMap fun n _ => sound_navButton tab n
  · cases tab <;> exact sound_lit rfl

/-! ### The dialogs -/

/-- The input of a field, with its further attributes. -/
def inputTag (extra : List Char) : List (Piece Kind) :=
  [.lit ['<', 'i', 'n', 'p', 'u', 't', ' ', 'n', 'a', 'm', 'e', '=', '"'], .hole .word,
   .lit ['"', ' ', 't', 'y', 'p', 'e', '=', '"'], .hole .word,
   .lit ['"', ' ', 'v', 'a', 'l', 'u', 'e', '=', '"'], .hole .text, .lit ['"', ' '], .lit extra,
   .lit ['>', '<', '/', 'l', 'a', 'b', 'e', 'l', '>']]

/-- A field of a form. -/
theorem sound_field {label name type value : String} {extra : List Char} (hLabel : Plain label)
    (hName : Plain name) (hType : Plain type) (h : Admits ownTag (inputTag extra) = true) :
    Sound ids (field label name value type (String.ofList extra)) := by
  unfold field
  simp only [List.append_assoc]
  refine (sound_lit rfl).append ((sound_word hLabel).append (sound_of_spelled (.lit
    (.hole Kind.word rfl (.lit (.hole Kind.word rfl (.lit (.hole Kind.text rfl
      (.lit (.lit (.lit .nil))))))))) h fun x hx => ?_))
  rcases List.mem_cons.mp hx with rfl | hx
  · exact (sound_word hName).meets _ List.mem_cons_self
  rcases List.mem_cons.mp hx with rfl | hx
  · exact (sound_word hType).meets _ List.mem_cons_self
  · exact (sound_esc value).meets x hx

/-- One of the choices in a form. -/
theorem sound_choice (value : String) (o : String × String) : Sound ids (choice value o) := by
  have hOpening : Sound ids (lit "<option value=\"" ++ esc o.1 ++ lit "\" " ++
      lit (if o.1 = value then "selected" else "") ++ lit ">") := by
    have hMeets : ∀ x ∈ holes (lit "<option value=\"" ++ esc o.1 ++ lit "\" " ++
        lit (if o.1 = value then "selected" else "") ++ lit ">"), Meets ids x := (sound_esc _).meets
    revert hMeets
    split_ifs <;> exact sound_of_spelled
      (.lit (.hole Kind.text rfl (.lit (.lit (.lit .nil))))) rfl
  exact (hOpening.append (sound_esc o.2)).append (sound_lit rfl)

/-- A choice in a form. -/
theorem sound_select {label name value : String} {options : List (String × String)}
    (hLabel : Plain label) (hName : Plain name) : Sound ids (select label name options value) := by
  have hOpening : Sound ids (lit "<select name=\"" ++ word name ++ lit "\">") :=
    sound_of_spelled (.lit (.hole Kind.word rfl (.lit .nil))) rfl (sound_word hName).meets
  have hOptions : Sound ids (options.flatMap (choice value)) :=
    sound_flatMap fun o _ => sound_choice value o
  have hSelect : Sound ids (lit "<select name=\"" ++ word name ++ lit "\">" ++
      options.flatMap (choice value) ++ lit "</select></label>") :=
    (hOpening.append hOptions).append (sound_lit rfl)
  unfold select
  simp only [List.append_assoc] at hSelect ⊢
  exact (sound_lit rfl).append ((sound_word hLabel).append hSelect)

/-- A dialog is sound when its parts are. -/
theorem sound_modal {title body : Html} (hTitle : Sound ids title) (hBody : Sound ids body) :
    Sound ids (modal title body) := by
  unfold modal
  repeat' with_reducible apply Sound.append
  any_goals exact sound_lit rfl
  · exact hTitle
  · exact hBody

theorem sound_fieldRow {body : Html} (h : Sound ids body) : Sound ids (fieldRow body) :=
  ((sound_lit rfl).append h).append (sound_lit rfl)

theorem sound_help {text : String} (h : Plain text) : Sound ids (help text) :=
  ((sound_lit rfl).append (sound_word h)).append (sound_lit rfl)

theorem sound_enrollDialog : Sound ids enrollDialog :=
  sound_modal (sound_word (plain_lit rfl)) ((sound_field (plain_lit rfl) (plain_lit rfl)
    (plain_lit rfl) rfl).append (sound_help (plain_lit rfl)))

/-- The dialog of a device. -/
theorem sound_deviceDialog (d : Device) : Sound ids (deviceDialog d) := by
  refine sound_modal (sound_word (plain_lit rfl)) ?_
  repeat' with_reducible apply Sound.append
  · exact sound_field (plain_lit rfl) (plain_lit rfl) (plain_lit rfl) rfl
  · exact sound_fieldRow ((sound_select (plain_lit rfl) (plain_lit rfl)).append
      (sound_field (plain_lit rfl) (plain_lit rfl) (plain_lit rfl) rfl))
  · exact sound_fieldRow ((sound_field (plain_lit rfl) (plain_lit rfl) (plain_lit rfl) rfl).append
      (sound_field (plain_lit rfl) (plain_lit rfl) (plain_lit rfl) rfl))
  · exact sound_field (plain_lit rfl) (plain_lit rfl) (plain_lit rfl) rfl
  · exact sound_help (plain_lit rfl)

/-- The dialog of a policy is sound. -/
theorem sound_policyDialog (id : String) : Sound ids (policyDialog s id) := by
  refine sound_modal (((sound_word (plain_lit rfl)).append (sound_esc _)).append
    (sound_word (plain_lit rfl))) ((sound_flatMap fun i _ => ?_).append
      (sound_select (plain_lit rfl) (plain_lit rfl)))
  exact sound_select (plain_append (plain_lit rfl) (plain_fmtInt _))
    (plain_append (plain_lit rfl) (plain_fmtInt _))

/-- The dialog of a new mapping. -/
theorem sound_mappingDialog : Sound ids (mappingDialog s) := by
  refine sound_modal (sound_word (plain_lit rfl)) ?_
  repeat' with_reducible apply Sound.append
  · exact sound_field (plain_lit rfl) (plain_lit rfl) (plain_lit rfl) rfl
  · exact sound_fieldRow ((sound_select (plain_lit rfl) (plain_lit rfl)).append
      (sound_field (plain_lit rfl) (plain_lit rfl) (plain_lit rfl) rfl))
  · exact sound_select (plain_lit rfl) (plain_lit rfl)
  · exact sound_field (plain_lit rfl) (plain_lit rfl) (plain_lit rfl) rfl
  · exact sound_field (plain_lit rfl) (plain_lit rfl) (plain_lit rfl) rfl
  · exact sound_help (plain_lit rfl)

/-- The question before a mapping is deleted. -/
theorem sound_deleteDialog (m : Mapping) : Sound ids (deleteDialog m) :=
  sound_modal (sound_word (plain_lit rfl))
    (((sound_lit rfl).append (sound_esc m.name)).append (sound_lit rfl))

/-- The dialog of a terminal is sound. -/
theorem sound_terminalDialog (id : String) : Sound ids (terminalDialog s id) := by
  unfold terminalDialog
  repeat' with_reducible apply Sound.append
  any_goals exact sound_lit rfl
  exact sound_esc _

/-- The dialog of a remote session is sound. -/
theorem sound_remoteDialog (mode : RemoteMode) (name : String) :
    Sound ids (remoteDialog mode name) := by
  unfold remoteDialog
  repeat' with_reducible apply Sound.append
  any_goals exact sound_lit rfl
  · cases mode <;> exact sound_lit rfl
  · exact sound_esc name

def fileButtonTag (kind : List Char) : List (Piece Kind) :=
  [.lit ['<', 'b', 'u', 't', 't', 'o', 'n', ' ', 'c', 'l', 'a', 's', 's', '=', '"'], .lit kind,
   .lit ['"', ' ', 'd', 'a', 't', 'a', '-', 'i', 'n', 'd', 'e', 'x', '=', '"'], .hole .word,
   .lit ['"', '>']]

/-- A button of the listing, by the number of its row. -/
theorem sound_fileButton {kind : List Char} {i : Nat} {label : Html}
    (h : Admits ownTag (fileButtonTag kind) = true) (hLabel : Sound ids label) :
    Sound ids (fileButton (String.ofList kind) i label) := by
  have hOpening : Sound ids (lit "<button class=\"" ++ lit (String.ofList kind) ++
      lit "\" data-index=\"" ++ number i ++ lit "\">") :=
    sound_of_spelled (.lit (.lit (.lit (.hole Kind.word rfl (.lit .nil))))) h (sound_number i).meets
  exact (hOpening.append hLabel).append (sound_lit rfl)

/-- A listing, where the sizes are numbers. -/
theorem sound_fileTable {entries : List FileEntry} (h : (View.files entries).Measured) :
    Sound ids (fileTable b entries) := by
  refine ((sound_lit rfl).append (sound_flatMap fun e he => ?_)).append (sound_lit rfl)
  obtain ⟨n, hSize⟩ := h e.1 (List.fst_mem_of_mem_zipIdx he)
  unfold fileRow
  repeat' with_reducible apply Sound.append
  any_goals exact sound_lit rfl
  · refine sound_fileButton rfl ((Sound.append ?_ (sound_lit rfl)).append (sound_esc _))
    split_ifs <;> exact sound_lit rfl
  · rw [hSize]
    exact sound_ite (fun _ => sound_lit rfl) fun _ => (sound_word (b.plain_grouped n)).append
      (sound_lit rfl)
  · exact sound_fileButton rfl (sound_lit rfl)
  · exact sound_fileButton rfl (sound_lit rfl)

/-- Whatever the page writes over a snapshot whose ids are among `ids`. -/
theorem sound_written {view : View} {html : Html} (h : written b s view = some html)
    (hMeasured : view.Measured) (hIds : ∀ d ∈ s.state.devices, d.id ∈ ids)
    (hMaps : ∀ m ∈ s.state.mappings, m.id ∈ ids ∧ Plain m.protocol.toUpper) : Sound ids html := by
  cases view with
  | shell tab =>
      obtain rfl := Option.some.inj h
      exact sound_shell tab
  | live =>
      obtain rfl := Option.some.inj h
      exact (sound_lit rfl).append (sound_word b.plain_clock)
  | content tab =>
      obtain rfl := Option.some.inj h
      exact sound_content hIds hMaps tab
  | enroll =>
      obtain rfl := Option.some.inj h
      exact sound_enrollDialog
  | device id =>
      obtain ⟨d, -, rfl⟩ := Option.map_eq_some_iff.mp h
      exact sound_deviceDialog d
  | policy id =>
      obtain rfl := Option.some.inj h
      exact sound_policyDialog id
  | mapping =>
      obtain rfl := Option.some.inj h
      exact sound_mappingDialog
  | delete id =>
      obtain ⟨m, -, rfl⟩ := Option.map_eq_some_iff.mp h
      exact sound_deleteDialog m
  | terminal id =>
      obtain rfl := Option.some.inj h
      exact sound_terminalDialog id
  | remote mode id =>
      obtain rfl := Option.some.inj h
      exact sound_remoteDialog mode _
  | files entries =>
      obtain rfl := Option.some.inj h
      exact sound_fileTable hMeasured

end Building

/-! ### The ids on record -/

/-- An id is cut from a token, and plain like it. -/
theorem plain_idOf {token : String} (h : IsToken token) : Plain (idOf token) := by
  refine plain_of_forall (P := fun c => GoNet.isDigit c = true ∨ ('a' ≤ c ∧ c ≤ 'f'))
    (fun c hc => ?_) (by decide) (by decide) (by decide) (by decide) (by decide)
  rw [idOf, String.toList_ofList] at hc
  exact h.2 c (List.mem_of_mem_take hc)

/-- Every id on record, or about to be, can be written as it is. -/
structure PlainIds (p : Process) : Prop where
  devices : ∀ i ∈ p.server.identities, Plain i.id
  mappings : ∀ m ∈ p.server.state.mappings, Plain m.id
  pending : ∀ holder m, p.holder = some holder → holder.pending = some m → Plain m.id

/-- The same of a file. -/
structure FileIds (st : State) : Prop where
  devices : ∀ i ∈ st.devices.map Device.identity, Plain i.id
  mappings : ∀ m ∈ st.mappings, Plain m.id

/-- The id of a mapping that is still to be added is plain. -/
theorem PlainIds.ahead {p : Process} (h : PlainIds p) {m : Mapping} (hAhead : p.ahead = some m) :
    Plain m.id := by
  obtain ⟨holder, hHolder, hPending⟩ := Option.bind_eq_some_iff.mp hAhead
  exact h.pending holder m hHolder hPending

/-- Ids are cut from tokens, and no move changes one. -/
theorem PlainIds.move {p : Process} (h : PlainIds p) {op : Op} {devices : List Identity}
    {rows : List Mapping} {ahead : Option Mapping} (hFresh : FreshTokens p op)
    (hMove : TableMove p op devices rows ahead) :
    (∀ i ∈ devices, Plain i.id) ∧ (∀ m ∈ rows, Plain m.id) ∧ ∀ m, ahead = some m → Plain m.id := by
  cases hMove with
  | stays hAhead => exact ⟨h.devices, h.mappings, fun m hm => h.ahead (hAhead m hm)⟩
  | joins ip =>
      refine ⟨fun i hi => ?_, h.mappings, fun m hm => h.ahead hm⟩
      rcases List.mem_append.mp hi with hi | hi
      · exact h.devices i hi
      · obtain rfl := List.mem_singleton.mp hi
        exact plain_idOf hFresh.1
  | accepts hId hValid =>
      refine ⟨h.devices, h.mappings, fun m hm => ?_⟩
      obtain rfl := Option.some.inj hm
      exact plain_idOf hFresh.1
  | adds hAhead =>
      refine ⟨h.devices, fun x hx => ?_, fun m hm => by cases hm⟩
      rcases List.mem_append.mp hx with hx | hx
      · exact h.mappings x hx
      · obtain rfl := List.mem_singleton.mp hx
        exact h.ahead hAhead
  | deletes hRows =>
      exact ⟨h.devices, fun x hx => h.mappings x (hRows.subset hx), fun m hm => by cases hm⟩
  | marks hf =>
      refine ⟨h.devices, fun x hx => ?_, fun m hm => by cases hm⟩
      obtain ⟨m, hm, rfl⟩ := List.mem_map.mp hx
      obtain ⟨e, he⟩ := hf m
      rw [he]
      exact h.mappings m hm

/-- No request and no task puts another id on record. -/
theorem plainIds_exec {p : Process} {op : Op} {sec : Section Process Answer}
    (hFresh : FreshTokens p op) (h : PlainIds p) (hSec : p.exec op = some sec) :
    sec.Holds PlainIds (fun q => FileIds q.server.state) := by
  refine (Process.exec_table hSec).mono (fun q hq => ?_) fun q ⟨_, hMove⟩ => ?_
  · obtain ⟨hDevices, hRows, hAhead⟩ := h.move hFresh hq.move
    refine ⟨hDevices, hRows, fun holder m hHolder hPending => hAhead m ?_⟩
    exact Option.bind_eq_some_iff.mpr ⟨holder, hHolder, hPending⟩
  · obtain ⟨hDevices, hRows, -⟩ := h.move hFresh hMove
    exact ⟨hDevices, hRows⟩

theorem PlainIds.boot {cfg : ServerConfig} {st : State} (h : FileIds st) :
    PlainIds (.ofServer (newServer cfg st)) :=
  ⟨h.devices, h.mappings, fun holder m hHolder => by cases hHolder⟩

/-- The first file has the server's own id. -/
theorem plainIds_first (cfg : ServerConfig) (token : String) : FileIds (firstState cfg token) where
  devices i hi := by
    obtain rfl := List.mem_singleton.mp hi
    exact plain_lit (l := ['c', 'l', 'o', 'u', 'd']) rfl
  mappings m hm := by cases hm

/-- In every reachable state the ids on record are plain. -/
theorem plainIds_reachable {cfg : ServerConfig} {token : String}
    {s : Machine Process State Op Answer} (h : Reachable (runs cfg token) s) {p : Process}
    (hUp : s.mem = some p) : PlainIds p :=
  (Service.invariant (I := PlainIds) (K := FileIds) (.boot (plainIds_first cfg token))
    (plainIds_first cfg token) (fun _ hDisk => .boot hDisk)
    (fun _ _ _ hFresh hMem hSec => plainIds_exec hFresh hMem hSec) h).1 p hUp

/-- The ids that the page writes on its buttons. -/
def idsOf (s : Snapshot) : List String :=
  s.state.devices.map Device.id ++ s.state.mappings.map Mapping.id

/-- The name of a protocol is plain. -/
theorem plain_protocol {m : Mapping}
    (h : m.protocol = "tcp" ∨ m.protocol = "udp" ∨ m.protocol = "http") :
    Plain m.protocol.toUpper := by
  rcases h with h | h | h <;> rw [h] <;> decide +kernel

/-- In every state reached, whatever names, versions, addresses and logs say: what
the page writes is read into tags of its own templates, none of which loads or
runs anything, and its buttons act on the devices and mappings on record. -/
theorem page_inert {cfg : ServerConfig} {token : String} {s : Machine Process State Op Answer}
    (h : Reachable (runs cfg token) s) {p : Process} (hUp : s.mem = some p) {b : Browser}
    {version : String} {now : Time} {view : View} {html : Html}
    (hMeasured : view.Measured)
    (hWritten : written b (p.server.getState version now) view = some html) :
    ∃ tokens, Markup.read id .data (render html) = some (.data, tokens) ∧
      ∀ t, .tag t ∈ tokens → Own (idsOf (p.server.getState version now)) t := by
  have hPlain := plainIds_reachable h hUp
  have hTable := (tableInvariant_reachable h hUp).table
  have hIds : ∀ id ∈ idsOf (p.server.getState version now), Plain id := by
    intro id hId
    rcases List.mem_append.mp hId with hId | hId
    · obtain ⟨d, hd, rfl⟩ := List.mem_map.mp hId
      obtain ⟨own, hOwn, rfl⟩ := List.mem_map.mp hd
      exact hPlain.devices own.identity (List.mem_map_of_mem hOwn)
    · obtain ⟨m, hm, rfl⟩ := List.mem_map.mp hId
      exact hPlain.mappings m hm
  refine (sound_written hWritten hMeasured (fun d hd => ?_) fun m hm => ⟨?_, ?_⟩).tags hIds
  · exact List.mem_append_left _ (List.mem_map_of_mem hd)
  · exact List.mem_append_right _ (List.mem_map_of_mem hm)
  · exact plain_protocol (hTable.accepted m hm).protocol

def sampleBrowser : Browser where
  dateTime _ := "2026/1/1 08:00:00"
  unixTime _ := "2026/1/1 08:00:00"
  clock := "08:00:00"
  bytes _ := "0 B"
  grouped _ := "0"
  canRemote _ := true
  plain_dateTime _ := plain_lit rfl
  plain_unixTime _ := plain_lit rfl
  plain_clock := plain_lit rfl
  plain_bytes _ := plain_lit rfl
  plain_grouped _ := plain_lit rfl

/-- A device whose name is a script. -/
theorem page_inert_hostile_name :
    ∃ p : Process, p.server.state.devices.map (fun d => (d.id, d.name)) =
        [("cloud", "公网服务器"), ("aaaaaaaaaaaa", "<script>alert(1)</script>")] ∧
      ∃ tokens, Markup.read id .data (render (content sampleBrowser
          (p.server.getState "0.2.0" 0) .devices)) = some (.data, tokens) ∧
        ∀ t, .tag t ∈ tokens → Own (idsOf (p.server.getState "0.2.0" 0)) t := by
  obtain ⟨s, p, hReach, hUp, hNames⟩ := exists_runs sampleConfig ""
    [.run (.createCode (sampleEnv 'c' 'c') (.ok "")) true,
     .run (.join (sampleEnv 'a' 'b')
       (.ok ⟨sampleToken 'c', "<script>alert(1)</script>", sampleKey⟩)) true]
    (fun p => p.server.state.devices.map fun d => (d.id, d.name))
    [("cloud", "公网服务器"), ("aaaaaaaaaaaa", "<script>alert(1)</script>")] (by decide +kernel)
  have hWritten : written sampleBrowser (p.server.getState "0.2.0" 0) (.content .devices) =
      some (content sampleBrowser (p.server.getState "0.2.0" 0) .devices) := rfl
  have hMeasured : (View.content .devices).Measured := trivial
  exact ⟨p, hNames, page_inert hReach hUp hMeasured hWritten⟩

/-- A device that lists a text for a size writes tags of its own into the page. -/
theorem listed_size_injects : ¬∀ entries, ∃ tokens,
    Markup.read id .data (render (fileTable sampleBrowser entries)) = some (.data, tokens) ∧
      ∀ t, .tag t ∈ tokens → Own [] t := by
  intro hAll
  obtain ⟨tokens, hRead, hOwn⟩ :=
    hAll [⟨"notes", false, .text "<img src=x onerror=alert(1)>"⟩]
  have hScript : (Markup.read id .data (render (fileTable sampleBrowser
      [⟨"notes", false, .text "<img src=x onerror=alert(1)>"⟩]))).map
        (fun r => r.2.any fun
          | .tag t => t.name = ['i', 'm', 'g']
          | .char _ => false) = some true := by decide +kernel
  rw [hRead, Option.map_some, Option.some.injEq, List.any_eq_true] at hScript
  obtain ⟨token, hToken, hImg⟩ := hScript
  cases token with
  | tag t =>
      have hName := (hOwn t hToken).name
      rw [of_decide_eq_true hImg] at hName
      exact absurd hName (by decide +kernel)
  | char c => cases hImg

end WebPage
end NetConductor
