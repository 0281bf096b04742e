import Mathlib.Data.List.DropRight
import Mathlib.Data.List.TakeWhile
import Mathlib.Logic.Function.Basic
import PodAttach.Config.Load
import PodAttach.Proofs.ConfigFiles
import PodAttach.Proofs.Durations
import PodAttach.Proofs.Options

/-!
# Settings from layers

The defaults, a file, the environment and the command line are laid over each
other, and the settings that come of it are looked at once.  A setting is a
value at a field here, so that one argument does for all ten.  What the settings
are called, what their texts stand for and what they are by default is written
down here once more, apart from the tables that are read.

* `Field.Denotes` says which value a text gives a setting, and `read?_eq_some_iff` that it is read
  so.
* `Settings.set_eq_ok_iff`: a text that is given for a setting is read, and changes only that one.
* `Layer.apply_eq_ok_iff`: a layer is laid over settings one field after the other, in any order.
* `Merges` says what some layers come to, without an order of steps; `Merges.cons` is one more layer
  and `Merges.unique` says that they leave no choice.
* `load_eq_ok_iff`, `load_layers`: what is loaded, and when.
-/

namespace PodAttach

/-- Only white space trims to nothing. -/
theorem Text.trimChars_eq_nil_iff {cs : List Char} :
    trimChars cs = [] ↔ ∀ c ∈ cs, isBlank c = true := by
  refine ⟨fun h => ?_, trimChars_eq_nil⟩
  rw [trimChars, List.reverse_eq_nil_iff, List.dropWhile_eq_nil_iff] at h
  have hrest : (cs.dropWhile isBlank).dropWhile isBlank = [] :=
    List.dropWhile_eq_nil_iff.2 fun c hc => h c (List.mem_reverse.2 hc)
  rw [List.dropWhile_idempotent] at hrest
  exact List.dropWhile_eq_nil_iff.1 hrest

/-- A text is a word, in letters of either case and with white space around it at most. -/
def Text.IsWord (word text : String) : Prop :=
  ∃ body, Padded body text.toList ∧ body.map Char.toLower = word.toList

/-- White space is no letter. -/
theorem Text.toLower_of_isBlank {c : Char} (hc : isBlank c = true) : c.toLower = c := by
  unfold Char.toLower
  rw [dif_neg]
  intro h
  obtain ⟨hlow, hhigh⟩ := h
  simp only [isBlank, Bool.or_eq_true, Bool.and_eq_true, decide_eq_true_eq, beq_iff_eq] at hc
  rw [ge_iff_le, UInt32.le_iff_toNat_le] at hlow
  rw [UInt32.le_iff_toNat_le] at hhigh
  have hfirst : 'A'.val.toNat = 65 := rfl
  have hlast : 'Z'.val.toNat = 90 := rfl
  have hcode : c.toNat = c.val.toNat := rfl
  omega

/-- A word is what is left of a text without its white space and its capitals. -/
theorem Text.lower_trim_eq_iff {word text : String} (hne : word.toList ≠ [])
    (hword : word.toList.all (fun c => !isBlank c) = true) :
    lower (trim text) = word ↔ IsWord word text := by
  have hchars : lower (trim text) = word ↔
      (trimChars text.toList).map Char.toLower = word.toList := by
    rw [← String.toList_inj, lower, trim, String.toList_ofList, String.toList_ofList]
  rw [hchars]
  constructor
  · intro h
    exact ⟨_, padded_trimChars _, h⟩
  · intro h
    obtain ⟨body, hpadded, hbody⟩ := h
    have hblank : ∀ c ∈ body, isBlank c = false := by
      intro c hc
      by_contra hcon
      rw [Bool.not_eq_false] at hcon
      have hmem : c.toLower ∈ word.toList := hbody ▸ List.mem_map_of_mem hc
      rw [toLower_of_isBlank hcon] at hmem
      have hletter := List.all_eq_true.1 hword c hmem
      rw [hcon] at hletter
      cases hletter
    have hbodyne : body ≠ [] := by
      rintro rfl
      exact hne hbody.symm
    rw [hpadded.trimChars_eq hbodyne (fun c hc => hblank c (List.mem_of_mem_head? hc))
      fun c hc => hblank c (List.mem_of_getLast? hc), hbody]

theorem Text.sameLetters_trim_none_iff {text : String} :
    sameLetters (trim text) "none" = true ↔ IsWord "none" text := by
  have hlower : lower "none" = "none" := by decide
  rw [sameLetters, beq_iff_eq, hlower]
  exact lower_trim_eq_iff (by decide) (by decide)

theorem Duration.isZero_eq_false_iff {d : Duration} : d.isZero = false ↔ d ≠ .zero := by
  cases d
  simp [Duration.isZero, Duration.zero]

namespace Config

/-! ## Settings one by one -/

/-- What the value of a setting is. -/
@[reducible]
def Field.Value : Field → Type
  | .cniSocket | .ovsBridge | .procRoot | .descriptorDir | .logLevel => String
  | .networkReadyTimeout | .ofportWait | .ovsCommandTimeout => Duration
  | .lockTimeout => Option Duration
  | .logFormat => LogFormat

/-- A text stands for no limit: it is the word for it, or gives no time at all. -/
def IsNoLimit (text : String) : Prop :=
  Text.IsWord "none" text ∨ Duration.Gives text .zero

/-- A text gives a limit. -/
def GivesLimit (text : String) : Option Duration → Prop
  | none => IsNoLimit text
  | some d => Duration.Gives text d ∧ d ≠ .zero

/-- A text names a log format. -/
def LogFormat.Names (text : String) : LogFormat → Prop
  | .text => Text.IsWord "text" text
  | .json => Text.IsWord "json" text

/-- A text gives a setting a value. -/
def Field.Denotes : (f : Field) → String → f.Value → Prop
  | .cniSocket, text, v | .ovsBridge, text, v | .procRoot, text, v | .descriptorDir, text, v
  | .logLevel, text, v => v = text
  | .networkReadyTimeout, text, d | .ofportWait, text, d | .ovsCommandTimeout, text, d =>
    Duration.Gives text d
  | .lockTimeout, text, limit => GivesLimit text limit
  | .logFormat, text, format => LogFormat.Names text format

/-- What a setting is where nothing gives it. -/
def Field.usual : (f : Field) → f.Value
  | .cniSocket => "/var/run/ovs-cni/cni.sock"
  | .ovsBridge => "br-int"
  | .procRoot => ""
  | .descriptorDir => "/var/lib/ovs-cni/ports"
  | .networkReadyTimeout => ⟨30000000000⟩
  | .lockTimeout => none
  | .ofportWait => ⟨1000000000⟩
  | .ovsCommandTimeout => ⟨10000000000⟩
  | .logLevel => "info"
  | .logFormat => .text

/-- The value that is read from a text for a setting. -/
def Field.read? : (f : Field) → String → Option f.Value
  | .cniSocket, text | .ovsBridge, text | .procRoot, text | .descriptorDir, text
  | .logLevel, text => some text
  | .networkReadyTimeout, text | .ofportWait, text | .ovsCommandTimeout, text =>
    Duration.parse? text
  | .lockTimeout, text => Duration.parseLimit? text
  | .logFormat, text => LogFormat.parse? text

theorem LogFormat.parse?_eq_some_iff {text : String} {format : LogFormat} :
    LogFormat.parse? text = some format ↔ LogFormat.Names text format := by
  have htext : Text.lower (Text.trim text) = "text" ↔ Text.IsWord "text" text :=
    Text.lower_trim_eq_iff (by decide) (by decide)
  have hjson : Text.lower (Text.trim text) = "json" ↔ Text.IsWord "json" text :=
    Text.lower_trim_eq_iff (by decide) (by decide)
  cases format with
  | text =>
    rw [LogFormat.Names, ← htext, LogFormat.parse?]
    split <;> simp_all
  | json =>
    rw [LogFormat.Names, ← hjson, LogFormat.parse?]
    split <;> simp_all

/-- A limit is read as its text gives it; no text is the word for none and gives a duration too. -/
theorem parseLimit?_eq_some_iff {text : String} {limit : Option Duration} :
    Duration.parseLimit? text = some limit ↔ GivesLimit text limit := by
  unfold Duration.parseLimit?
  simp only [GivesLimit.eq_def, IsNoLimit, ← Text.sameLetters_trim_none_iff,
    ← Duration.parse?_eq_some_iff_gives]
  cases hread : Duration.parse? text with
  | none => cases limit <;> simp
  | some d =>
    rw [Duration.not_none_of_parse? hread]
    have hzero := Duration.isZero_eq_false_iff (d := d)
    cases limit <;> grind

theorem GivesLimit.eq_none_iff {text : String} {limit : Option Duration}
    (h : GivesLimit text limit) : limit = none ↔ IsNoLimit text := by
  constructor
  · rintro rfl
    exact h
  · intro hnone
    have hread : Duration.parseLimit? text = some none := parseLimit?_eq_some_iff.2 hnone
    rw [parseLimit?_eq_some_iff.2 h] at hread
    exact Option.some.inj hread

/-- A setting is read as the value that its text gives it. -/
theorem Field.read?_eq_some_iff {f : Field} {text : String} {v : f.Value} :
    f.read? text = some v ↔ f.Denotes text v := by
  have hself : ∀ v : String, some text = some v ↔ v = text := by
    simp [eq_comm]
  cases f with
  | cniSocket | ovsBridge | procRoot | descriptorDir | logLevel => exact hself v
  | networkReadyTimeout | ofportWait | ovsCommandTimeout => exact Duration.parse?_eq_some_iff_gives
  | lockTimeout => exact parseLimit?_eq_some_iff
  | logFormat =>
    show LogFormat.parse? text = some v ↔ LogFormat.Names text v
    exact LogFormat.parse?_eq_some_iff

namespace Settings

/-- The value of a setting. -/
def get (s : Settings) : (f : Field) → f.Value
  | .cniSocket => s.cniSocket
  | .ovsBridge => s.ovsBridge
  | .procRoot => s.procRoot
  | .descriptorDir => s.descriptorDir
  | .networkReadyTimeout => s.networkReadyTimeout
  | .lockTimeout => s.lockTimeout
  | .ofportWait => s.ofportWait
  | .ovsCommandTimeout => s.ovsCommandTimeout
  | .logLevel => s.logLevel
  | .logFormat => s.logFormat

/-- The settings with given values. -/
def ofValues (v : (f : Field) → f.Value) : Settings where
  cniSocket := v .cniSocket
  ovsBridge := v .ovsBridge
  procRoot := v .procRoot
  descriptorDir := v .descriptorDir
  networkReadyTimeout := v .networkReadyTimeout
  lockTimeout := v .lockTimeout
  ofportWait := v .ofportWait
  ovsCommandTimeout := v .ovsCommandTimeout
  logLevel := v .logLevel
  logFormat := v .logFormat

@[simp]
theorem get_ofValues (v : (f : Field) → f.Value) (f : Field) : (ofValues v).get f = v f := by
  cases f <;> rfl

/-- Settings are known by their values. -/
theorem ext_get {s t : Settings} (h : ∀ f, s.get f = t.get f) : s = t := by
  have hself : ∀ u : Settings, ofValues u.get = u := fun _ => rfl
  rw [← hself s, ← hself t, funext h]

/-- The settings with another value of one of them. -/
def put (s : Settings) (f : Field) (v : f.Value) : Settings :=
  ofValues (Function.update s.get f v)

theorem get_put (s : Settings) (f : Field) (v : f.Value) :
    (s.put f v).get = Function.update s.get f v :=
  funext (get_ofValues _)

/-- A setting is given as a text exactly if the text is read, and only that setting changes. -/
theorem set_eq_ok_iff {s t : Settings} {f : Field} {text : String} :
    s.set f text = .ok t ↔ ∃ v, f.read? text = some v ∧ t = s.put f v := by
  have hread : ∀ {α : Type} (e : Error) (x : Option α) (change : α → Settings),
      (orError e x).map change = .ok t ↔ ∃ v, x = some v ∧ t = change v := by
    intro α e x change
    cases x <;> simp [orError, Except.map, eq_comm]
  have htext : ∀ change : String → Settings,
      (.ok (change text) : Except Error Settings) = .ok t ↔
        ∃ v, some text = some v ∧ t = change v := by
    simp [eq_comm]
  cases f with
  | cniSocket => exact htext (s.put .cniSocket)
  | ovsBridge => exact htext (s.put .ovsBridge)
  | procRoot => exact htext (s.put .procRoot)
  | descriptorDir => exact htext (s.put .descriptorDir)
  | networkReadyTimeout =>
    exact hread (.badDuration text) (Duration.parse? text) (s.put .networkReadyTimeout)
  | lockTimeout => exact hread (.badDuration text) (Duration.parseLimit? text) (s.put .lockTimeout)
  | ofportWait => exact hread (.badDuration text) (Duration.parse? text) (s.put .ofportWait)
  | ovsCommandTimeout =>
    exact hread (.badDuration text) (Duration.parse? text) (s.put .ovsCommandTimeout)
  | logLevel => exact htext (s.put .logLevel)
  | logFormat => exact hread (.badLogFormat text) (LogFormat.parse? text) (s.put .logFormat)

/-! ## Settings that can work -/

/-- Settings that can work. -/
structure Works (s : Settings) : Prop where
  cniSocket : ∃ c ∈ s.cniSocket.toList, Text.isBlank c = false
  ovsBridge : ∃ c ∈ s.ovsBridge.toList, Text.isBlank c = false
  descriptorDir : ∃ c ∈ s.descriptorDir.toList, Text.isBlank c = false
  ofportWait : s.ofportWait ≠ .zero
  ovsCommandTimeout : s.ovsCommandTimeout ≠ .zero
  procRoot : s.procRoot = "" ∨ s.procRoot.toList.head? = some '/'

/-- A text is nothing but white space if all of its characters are. -/
theorem isBlankText_eq_false_iff {text : String} :
    isBlankText text = false ↔ ∃ c ∈ text.toList, Text.isBlank c = false := by
  have hempty : isBlankText text = true ↔ Text.trimChars text.toList = [] := by
    simp [isBlankText, Text.trim]
  rw [← Bool.not_eq_true, hempty, Text.trimChars_eq_nil_iff]
  simp

theorem report_eq_none_iff {p : Prop} [Decidable p] {e : Error} {x : Option Error} :
    (if p then some e else x) = none ↔ ¬ p ∧ x = none := by
  by_cases hp : p <;> simp [hp]

theorem fault?_eq_none_iff {s : Settings} : s.fault? = none ↔ s.Works := by
  have hprocRoot : ¬ (!s.procRoot.isEmpty && s.procRoot.toList.head? != some '/') = true ↔
      s.procRoot = "" ∨ s.procRoot.toList.head? = some '/' := by
    simp [or_iff_not_imp_left]
  simp only [fault?, report_eq_none_iff, hprocRoot, Bool.not_eq_true, isBlankText_eq_false_iff,
    Duration.isZero_eq_false_iff, and_true]
  constructor
  · intro h
    obtain ⟨hsocket, hbridge, hdir, hwait, htimeout, hroot⟩ := h
    exact ⟨hsocket, hbridge, hdir, hwait, htimeout, hroot⟩
  · intro h
    exact ⟨h.cniSocket, h.ovsBridge, h.descriptorDir, h.ofportWait, h.ovsCommandTimeout,
      h.procRoot⟩

theorem validate_eq_ok_iff {s t : Settings} : s.validate = .ok t ↔ s.Works ∧ t = s := by
  rw [← fault?_eq_none_iff]
  unfold validate
  cases s.fault? with
  | none => simp [eq_comm]
  | some e => simp

end Settings

/-! ## One layer -/

namespace Layer

variable {l : Layer} {s t : Settings} {f : Field}

/-- A text that a layer gives for a setting stands for a value. -/
def Reads (l : Layer) (f : Field) : Prop :=
  ∀ text, l f = some text → ∃ v, f.Denotes text v

/-- The value of a setting where a layer is laid over some settings. -/
def valueOver (l : Layer) (s : Settings) (f : Field) : f.Value :=
  ((l f).bind f.read?).getD (s.get f)

theorem applyField_eq_ok_iff :
    l.applyField s f = .ok t ↔ l.Reads f ∧ t = s.put f (l.valueOver s f) := by
  unfold applyField Reads valueOver
  cases hf : l f with
  | none =>
    have hsame : s.put f (s.get f) = s := by
      apply Settings.ext_get
      intro g
      rw [Settings.get_put, Function.update_eq_self]
    dsimp only
    rw [Option.bind_none, Option.getD_none, hsame]
    constructor
    · intro h
      cases h
      exact ⟨nofun, rfl⟩
    · intro h
      obtain ⟨-, rfl⟩ := h
      rfl
  | some text =>
    dsimp only
    rw [Settings.set_eq_ok_iff, Option.bind_some]
    constructor
    · intro h
      obtain ⟨v, hread, rfl⟩ := h
      refine ⟨?_, by rw [hread, Option.getD_some]⟩
      rintro _ ⟨⟩
      exact ⟨v, Field.read?_eq_some_iff.1 hread⟩
    · intro h
      obtain ⟨hreads, rfl⟩ := h
      obtain ⟨v, hv⟩ := hreads text rfl
      have hread := Field.read?_eq_some_iff.2 hv
      exact ⟨v, hread, by rw [hread, Option.getD_some]⟩

/-- A layer is laid over settings exactly if its texts stand for values, and each setting for which
it has one gets its value. -/
theorem apply_eq_ok_iff {order : List Field} :
    l.apply order s = .ok t ↔ (∀ f ∈ order, l.Reads f) ∧
      ∀ g, t.get g = if g ∈ order then l.valueOver s g else s.get g := by
  induction order generalizing s with
  | nil =>
    have hnil : l.apply [] s = .ok s := rfl
    rw [hnil]
    constructor
    · intro h
      cases h
      simp
    · intro h
      obtain ⟨-, h⟩ := h
      rw [Settings.ext_get fun g => (h g).trans (if_neg (by simp))]
  | cons f order ih =>
    have hstep : l.apply (f :: order) s = l.applyField s f >>= l.apply order := rfl
    rw [hstep, bind_eq_ok_iff, List.forall_mem_cons]
    -- giving a setting its value again changes nothing
    have hvalue : ∀ g, (if g ∈ order then l.valueOver (s.put f (l.valueOver s f)) g
        else (s.put f (l.valueOver s f)).get g) =
          if g ∈ f :: order then l.valueOver s g else s.get g := by
      intro g
      by_cases hg : g = f
      · subst hg
        have hagain : l.valueOver (s.put g (l.valueOver s g)) g = l.valueOver s g := by
          unfold valueOver
          rw [Settings.get_put, Function.update_self]
          cases (l g).bind g.read? <;> rfl
        rw [hagain, Settings.get_put, Function.update_self, ite_self, if_pos (by simp)]
      · have hother : l.valueOver (s.put f (l.valueOver s f)) g = l.valueOver s g := by
          unfold valueOver
          rw [Settings.get_put, Function.update_of_ne hg]
        rw [hother, Settings.get_put, Function.update_of_ne hg]
        simp [hg]
    constructor
    · intro h
      obtain ⟨s', hfirst, hrest⟩ := h
      obtain ⟨hreads, rfl⟩ := applyField_eq_ok_iff.1 hfirst
      obtain ⟨hreads', hget⟩ := ih.1 hrest
      exact ⟨⟨hreads, hreads'⟩, fun g => (hget g).trans (hvalue g)⟩
    · intro h
      obtain ⟨⟨hreads, hreads'⟩, hget⟩ := h
      refine ⟨_, applyField_eq_ok_iff.2 ⟨hreads, rfl⟩, ih.2 ⟨hreads', fun g => ?_⟩⟩
      rw [hget g, hvalue g]

/-- Every text that a layer gives stands for a value. -/
def Readable (l : Layer) : Prop :=
  ∀ f, l.Reads f

theorem apply_all_eq_ok_iff {order : List Field} (hall : ∀ f, f ∈ order) :
    l.apply order s = .ok t ↔ l.Readable ∧ ∀ g, t.get g = l.valueOver s g := by
  rw [apply_eq_ok_iff]
  simp only [hall, if_true, forall_true_left, Readable]

end Layer

/-! ## All layers -/

/-- The text of the highest layer that gives one for a setting; the highest comes first. -/
def topText? (layers : List Layer) (f : Field) : Option String :=
  layers.findSome? fun l => l f

/-- Settings are those of some layers: each has the value that the highest layer gives it, and the
default where none does. -/
def Merges (layers : List Layer) (t : Settings) : Prop :=
  ∀ f, match topText? layers f with
    | some text => f.Denotes text (t.get f)
    | none => t.get f = f.usual

theorem merges_nil : Merges [] {} := by
  intro f
  cases f <;> rfl

theorem Merges.cons {l : Layer} {layers : List Layer} {s t : Settings} (hl : l.Readable)
    (hs : Merges layers s) (ht : ∀ f, t.get f = l.valueOver s f) : Merges (l :: layers) t := by
  intro f
  have hf := hs f
  rw [ht f, Layer.valueOver, topText?, List.findSome?_cons]
  cases htext : l f with
  | none => exact hf
  | some text =>
    obtain ⟨v, hv⟩ := hl f text htext
    simpa [Field.read?_eq_some_iff.2 hv] using hv

/-- The layers leave no choice. -/
theorem Merges.unique {layers : List Layer} {s t : Settings} (hs : Merges layers s)
    (ht : Merges layers t) : s = t := by
  apply Settings.ext_get
  intro f
  have hsf := hs f
  have htf := ht f
  cases htop : topText? layers f with
  | none =>
    rw [htop] at hsf htf
    exact hsf.trans htf.symm
  | some text =>
    rw [htop] at hsf htf
    have hread := Field.read?_eq_some_iff.2 hsf
    rw [Field.read?_eq_some_iff.2 htf] at hread
    exact (Option.some.inj hread).symm

theorem exists_merges {layers : List Layer} (hlayers : ∀ l ∈ layers, l.Readable) :
    ∃ t, Merges layers t := by
  induction layers with
  | nil => exact ⟨{}, merges_nil⟩
  | cons l layers ih =>
    rw [List.forall_mem_cons] at hlayers
    obtain ⟨s, hs⟩ := ih hlayers.2
    exact ⟨_, hs.cons hlayers.1 (Settings.get_ofValues (l.valueOver s))⟩

/-- What the file of a command line gives, if it names one. -/
def FileGives (s : Sources) (c : CommandLine) (file : Layer) : Prop :=
  match c.value? .file with
  | none => file = fun _ => none
  | some path => ∃ bytes text document, s.file path = some bytes ∧
      Utf8.decode? bytes = some text ∧ Toml.parse? text = some document ∧ Fits document ∧
      file = fun f => f.fileText? document

theorem lowestLayer_eq_ok_iff {s : Sources} {c : CommandLine} {file : Layer} :
    s.lowestLayer c = .ok file ↔ FileGives s c file := by
  unfold Sources.lowestLayer FileGives CommandLine.file?
  cases c.value? .file with
  | none => exact ⟨fun h => (Except.ok.inj h).symm, fun h => congrArg Except.ok h.symm⟩
  | some path =>
    dsimp only [Sources.fileLayer]
    constructor
    · intro h
      cases hdecode : (s.file path).bind Utf8.decode? with
      | none =>
        rw [hdecode] at h
        cases h
      | some text =>
        obtain ⟨bytes, hbytes, htext⟩ := Option.bind_eq_some_iff.1 hdecode
        rw [hdecode] at h
        dsimp only at h
        cases hvalues : FileValues.parse? text with
        | none =>
          rw [hvalues] at h
          cases h
        | some values =>
          rw [hvalues] at h
          obtain rfl := Except.ok.inj h
          obtain ⟨document, hdocument, hread⟩ := Option.bind_eq_some_iff.1 hvalues
          refine ⟨bytes, text, document, hbytes, htext, hdocument,
            exists_ofDocument?_iff.1 ⟨values, hread⟩, ?_⟩
          exact funext (lookup_ofDocument? (Toml.distinct_of_parse? hdocument) hread)
    · intro h
      obtain ⟨bytes, text, document, hbytes, htext, hdocument, hfits, rfl⟩ := h
      obtain ⟨values, hread⟩ := exists_ofDocument?_iff.2 hfits
      have hvalues : FileValues.parse? text = some values :=
        Option.bind_eq_some_iff.2 ⟨document, hdocument, hread⟩
      rw [hbytes, Option.bind_some, htext]
      dsimp only
      rw [hvalues]
      exact congrArg Except.ok
        (funext (lookup_ofDocument? (Toml.distinct_of_parse? hdocument) hread))

/-- The variable that gives a setting. -/
def Field.variableName : Field → String
  | .cniSocket => "OVS_CNI_AGENT_CNI_SOCKET"
  | .ovsBridge => "OVS_CNI_AGENT_OVS_BRIDGE"
  | .procRoot => "OVS_CNI_AGENT_HOST_PROC_PATH_PREFIX"
  | .descriptorDir => "OVS_CNI_AGENT_DESCRIPTOR_DIR"
  | .networkReadyTimeout => "OVS_CNI_AGENT_NETWORK_READY_TIMEOUT"
  | .lockTimeout => "OVS_CNI_AGENT_LOCK_TIMEOUT"
  | .ofportWait => "OVS_CNI_AGENT_OFPORT_WAIT"
  | .ovsCommandTimeout => "OVS_CNI_AGENT_OVS_COMMAND_TIMEOUT"
  | .logLevel => "OVS_CNI_AGENT_LOG_LEVEL"
  | .logFormat => "OVS_CNI_AGENT_LOG_FORMAT"

/-- It is looked up by this name. -/
theorem Field.variableStart_append (f : Field) : variableStart ++ f.variable = f.variableName := by
  cases f <;> decide

/-- The layers of a command line, an environment and a file, the highest first. -/
def layersOf (s : Sources) (c : CommandLine) (file : Layer) : List Layer :=
  [fun f => c.value? (.field f), fun f => s.environment f.variableName, file]

theorem load_eq_ok_iff {s : Sources} {c : CommandLine} {t : Settings} :
    load s c = .ok t ↔ ∃ file, FileGives s c file ∧
      (∀ l ∈ layersOf s c file, l.Readable) ∧ Merges (layersOf s c file) t ∧ t.Works := by
  have hcommandLine : ∀ f, f ∈ commandLineOrder := by
    intro f
    cases f <;> decide
  have henvironment : Layer.ofEnvironment s.environment = fun f => s.environment f.variableName :=
    funext fun f => congrArg s.environment f.variableStart_append
  unfold load
  simp only [henvironment, bind_eq_ok_iff, lowestLayer_eq_ok_iff,
    Layer.apply_all_eq_ok_iff mem_usualOrder, Layer.apply_all_eq_ok_iff hcommandLine,
    Settings.validate_eq_ok_iff, layersOf, List.forall_mem_cons]
  constructor
  · intro h
    obtain ⟨file, hfile, s₁, ⟨hread₁, hget₁⟩, s₂, ⟨hread₂, hget₂⟩, s₃, ⟨hread₃, hget₃⟩,
      hworks, rfl⟩ := h
    have hmerges := ((merges_nil.cons hread₁ hget₁).cons hread₂ hget₂).cons hread₃ hget₃
    exact ⟨file, hfile, ⟨hread₃, hread₂, hread₁, nofun⟩, hmerges, hworks⟩
  · intro h
    obtain ⟨file, hfile, ⟨hread₃, hread₂, hread₁, -⟩, hmerges, hworks⟩ := h
    have hget : ∀ (l : Layer) s, ∀ f, (Settings.ofValues (l.valueOver s)).get f = l.valueOver s f :=
      fun l s => Settings.get_ofValues (l.valueOver s)
    refine ⟨file, hfile, _, ⟨hread₁, hget _ _⟩, _, ⟨hread₂, hget _ _⟩, _, ⟨hread₃, hget _ _⟩, ?_⟩
    have hsame := hmerges.unique (((merges_nil.cons hread₁ (hget _ _)).cons hread₂
      (hget _ _)).cons hread₃ (hget _ _))
    exact ⟨hsame ▸ hworks, hsame⟩

/-- Settings are loaded exactly if the file can be read, as far as one is named, every text that
the file, the environment or the command line gives stands for a value, and the settings that they
come to can work.  Each setting has the value of the highest of them that gives it, and the default
where none does.

The settings are those of the layers, and the layers leave no choice.  A limit is taken away where
the highest layer that gives one says that there is none, whatever the others say.  No two settings
share a variable, or a key of the file, and a command line gives the values of its options. -/
theorem load_layers (s : Sources) (c : CommandLine) :
    (∀ t, load s c = .ok t ↔ ∃ file, FileGives s c file ∧
      (∀ l ∈ layersOf s c file, l.Readable) ∧ Merges (layersOf s c file) t ∧ t.Works) ∧
    (∀ layers : List Layer, (∀ l ∈ layers, l.Readable) → ∃! t, Merges layers t) ∧
    (∀ t file text, load s c = .ok t → FileGives s c file →
      topText? (layersOf s c file) .lockTimeout = some text →
      (t.lockTimeout = none ↔ IsNoLimit text)) ∧
    (∀ f g : Field, f.variableName = g.variableName → f = g) ∧
    (∀ f g : Field, f.place.table = g.place.table → f.place.key = g.place.key → f = g) ∧
    ∀ given : List (Setter × String), (given.map Prod.fst).Nodup →
      ∃ line, CommandLine.parse (given.map fun e => e.1.argument e.2) = .ok line ∧
        ∀ setter, line.value? setter = given.lookup setter := by
  refine ⟨fun _ => load_eq_ok_iff, ?_, ?_, ?_, fun _ _ => eq_of_place,
    fun _ => CommandLine.parse_arguments⟩
  · intro layers hlayers
    obtain ⟨t, ht⟩ := exists_merges hlayers
    exact ⟨t, ht, fun _ ht' => ht'.unique ht⟩
  · intro t file text hload hfile htop
    obtain ⟨file', hfile', -, hmerges, -⟩ := load_eq_ok_iff.1 hload
    obtain rfl : file' = file := by
      have h := lowestLayer_eq_ok_iff.2 hfile'
      rw [lowestLayer_eq_ok_iff.2 hfile] at h
      exact (Except.ok.inj h).symm
    have hlimit := hmerges .lockTimeout
    rw [htop] at hlimit
    exact GivesLimit.eq_none_iff hlimit
  · intro f g
    have hall : ∀ f ∈ usualOrder, ∀ g ∈ usualOrder,
        f.variableName = g.variableName → f = g := by decide
    exact hall f (mem_usualOrder f) g (mem_usualOrder g)

namespace Sample

/-- A file with a limit and a bridge, and an environment that says that there is no limit. -/
def sources : Sources where
  file _ := some (Utf8.encode "[server]\nlock_timeout = \"5s\"\n[switch]\nbridge = \"br-a\"\n")
  environment name := if name = "OVS_CNI_AGENT_LOCK_TIMEOUT" then some "None" else none

end Sample

/-- The limit of the file is taken away, and the command line's bridge counts. -/
example : (load Sample.sources
    { values := [(.file, "a.toml"), (.field .ovsBridge, "br-b")] }).toOption =
      some { ovsBridge := "br-b" } := by
  decide +kernel

end Config

end PodAttach
