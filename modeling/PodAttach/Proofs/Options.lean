import PodAttach.Config.CommandLine
import PodAttach.Proofs.ConfigFiles

/-!
# What a command line gives

Every option with a value has a name, and an argument gives the value behind the
name and a sign of equality.

* `Setter.optionName`: the names, apart from the table that is searched for them.
* `Reader.feed_argument`: one argument adds one value; `Reader.feed_arguments`: several of them, by
  induction, as no option is given twice.
* `CommandLine.parse_arguments`: a command line gives the values of its options.
-/

namespace PodAttach.Config

/-- The name of an option with a value. -/
def Setter.optionName : Setter → String
  | .file => "config"
  | .field .cniSocket => "cni-socket"
  | .field .ovsBridge => "ovs-bridge"
  | .field .procRoot => "host-proc-path-prefix"
  | .field .descriptorDir => "descriptor-dir"
  | .field .networkReadyTimeout => "network-ready-timeout"
  | .field .lockTimeout => "lock-timeout"
  | .field .ofportWait => "ofport-wait"
  | .field .ovsCommandTimeout => "ovs-command-timeout"
  | .field .logLevel => "log-level"
  | .field .logFormat => "log-format"

/-- The argument that gives an option a value. -/
def Setter.argument (s : Setter) (value : String) : String :=
  "--" ++ s.optionName ++ "=" ++ value

theorem Setter.forall_iff {p : Setter → Prop} :
    (∀ s, p s) ↔ p .file ∧ ∀ f ∈ usualOrder, p (.field f) := by
  constructor
  · intro h
    exact ⟨h _, fun f _ => h _⟩
  · intro h s
    cases s with
    | file => exact h.1
    | field f => exact h.2 f (mem_usualOrder f)

theorem Setter.ofLong?_optionName (s : Setter) :
    Switch.ofLong? s.optionName = some (.setter s) := by
  revert s
  rw [Setter.forall_iff]
  decide

/-- The name of an option is told from the value behind it. -/
theorem Setter.optionName_chars (s : Setter) :
    s.optionName.toList ≠ [] ∧ s.optionName.toList.all (· != '=') = true := by
  revert s
  rw [Setter.forall_iff]
  decide

namespace CommandLine

namespace Reader

variable {r : Reader} {s : Setter} {value : String}

/-- What was read, with one value more. -/
def adding (r : Reader) (s : Setter) (value : String) : Reader :=
  { r with line := { r.line with values := (s, value) :: r.line.values } }

theorem value?_adding (t : Setter) :
    (r.adding s value).line.value? t = if t = s then some value else r.line.value? t := by
  show ((s, value) :: r.line.values).lookup t = _
  rw [List.lookup_cons]
  by_cases ht : t = s
  · simp [ht]
  · rw [beq_false_of_ne ht, if_neg ht]
    rfl

/-- An argument that gives an option its first value adds just this. -/
theorem feed_argument (hended : r.ended = false) (hpending : r.pending = none)
    (hnew : r.line.value? s = none) : r.feed (s.argument value) = .ok (r.adding s value) := by
  obtain ⟨hne, hname⟩ := s.optionName_chars
  have hpass := List.all_eq_true.1 hname
  have hchars : (s.argument value).toList =
      '-' :: '-' :: (s.optionName.toList ++ '=' :: value.toList) := by
    simp [Setter.argument]
  have hfeed : r.feed (s.argument value) =
      r.long (s.optionName.toList ++ '=' :: value.toList) := by
    obtain ⟨c, cs, hcs⟩ := List.exists_cons_of_ne_nil hne
    rw [feed, hended, hchars, hcs]
    rfl
  have htake : (s.optionName.toList ++ '=' :: value.toList).takeWhile (· != '=') =
      s.optionName.toList := by
    rw [List.takeWhile_append_of_pos hpass, List.takeWhile_cons_of_neg (by simp), List.append_nil]
  have hdrop : (s.optionName.toList ++ '=' :: value.toList).dropWhile (· != '=') =
      '=' :: value.toList := by
    rw [List.dropWhile_append_of_pos hpass, List.dropWhile_cons_of_neg (by simp)]
  have hlong : r.long (s.optionName.toList ++ '=' :: value.toList) =
      r.option (.setter s) (some value) := by
    rw [long, htake, hdrop, String.ofList_toList, s.ofLong?_optionName]
    show r.option (.setter s) (some (String.ofList value.toList)) = _
    rw [String.ofList_toList]
  have hsettle : r.settle = .ok r := by rw [settle, hpending]
  have hoption : r.option (.setter s) (some value) = r.give s value := by
    rw [option, hsettle]
    rfl
  rw [hfeed, hlong, hoption, give, hnew]
  rfl

/-- Options that are given once, and were not given before, give their values. -/
theorem feed_arguments {given : List (Setter × String)} (hended : r.ended = false)
    (hpending : r.pending = none) (hgiven : (given.map Prod.fst).Nodup)
    (hnew : ∀ e ∈ given, r.line.value? e.1 = none) :
    ∃ r', (given.map fun e => e.1.argument e.2).foldlM feed r = .ok r' ∧ r'.pending = none ∧
      ∀ s, r'.line.value? s = (given.lookup s).or (r.line.value? s) := by
  induction given generalizing r with
  | nil => exact ⟨r, rfl, hpending, fun _ => rfl⟩
  | cons e given ih =>
    obtain ⟨s, value⟩ := e
    rw [List.map_cons, List.nodup_cons] at hgiven
    rw [List.forall_mem_cons] at hnew
    have hother : ∀ e ∈ given, e.1 ≠ s :=
      fun e he heq => hgiven.1 (List.mem_map.2 ⟨e, he, heq⟩)
    have hstill : ∀ e ∈ given, (r.adding s value).line.value? e.1 = none := by
      intro e he
      rw [value?_adding, if_neg (hother e he)]
      exact hnew.2 e he
    obtain ⟨r', hfold, hsettled, hline⟩ :=
      ih (r := r.adding s value) hended hpending hgiven.2 hstill
    refine ⟨r', ?_, hsettled, fun t => ?_⟩
    · rw [List.map_cons, List.foldlM_cons, feed_argument hended hpending hnew.1]
      exact hfold
    · rw [hline, value?_adding, List.lookup_cons]
      by_cases ht : t = s
      · subst ht
        have hnone : given.lookup t = none :=
          lookup_eq_none_iff.2 fun e he => (hother e he).symm
        simp [hnone]
      · rw [beq_false_of_ne ht, if_neg ht]

end Reader

/-- Options that are given once give their values. -/
theorem parse_arguments {given : List (Setter × String)} (hgiven : (given.map Prod.fst).Nodup) :
    ∃ c, parse (given.map fun e => e.1.argument e.2) = .ok c ∧
      ∀ s, c.value? s = given.lookup s := by
  obtain ⟨r, hfold, hpending, hline⟩ :=
    Reader.feed_arguments (r := {}) rfl rfl hgiven fun _ _ => rfl
  refine ⟨r.line, ?_, fun s => ?_⟩
  · rw [parse, hfold]
    show (do return (← r.settle).line) = _
    rw [Reader.settle, hpending]
    rfl
  · rw [hline]
    exact Option.or_none

end CommandLine

end PodAttach.Config
