import Mathlib.Tactic.FinCases
import UnusedDeps.Graph.Resolve
import UnusedDeps.Proofs.Steps

/-!
# Keys of a manifest

The resolver names a dependency by an alias; the manifest has it under a key.
The alias of a renamed declaration is its rename with underscores, that of any
other is the alias of the library. Main statement: `recovers_nameInManifest`. The
key is read back from the alias when no two declarations of one package and kind
share an alias under different keys, and in any case the answer is the key of one
of these declarations, or the name of the package when there is none.
-/

namespace UnusedDeps

namespace Declaration

/-- Whether a declaration asks for a package in a kind. -/
structure IsFor (d : Declaration) (target : String) (kind : DependencyKind) : Prop where
  name : d.name = some target
  kind : declaredKind d.kind = .ok kind

/-- The key under which the manifest has a declaration of a package. -/
def keyOf (d : Declaration) (target : String) : String :=
  match d.rename with
  | .given r => r
  | _ => target

/-- The alias under which the compiler receives the library of a declaration. -/
def aliasOf (d : Declaration) (library : Value) : Value :=
  match d.rename with
  | .given r => .text (Text.underscored r)
  | _ => library

theorem keyOf_given {d : Declaration} {r : String} (h : d.rename = .given r) (target : String) :
    d.keyOf target = r := by
  simp [keyOf, h]

theorem keyOf_absent {d : Declaration} (h : d.rename = .absent) (target : String) :
    d.keyOf target = target := by
  simp [keyOf, h]

theorem aliasOf_given {d : Declaration} {r : String} (h : d.rename = .given r) (library : Value) :
    d.aliasOf library = .text (Text.underscored r) := by
  simp [aliasOf, h]

end Declaration

variable {ds : List Declaration} {target : String} {kind : DependencyKind} {externName : Value}

/-! ### Declarations of one package and kind -/

theorem candidates_isOk
    (known : ∀ d ∈ ds, d.name = some target → ∃ k, declaredKind d.kind = .ok k) :
    ∃ cs, candidates target kind (ds.map some) = .ok cs ∧
      ∀ d, d ∈ cs ↔ d ∈ ds ∧ d.IsFor target kind := by
  induction ds with
  | nil => exact ⟨[], rfl, by simp⟩
  | cons d ds ih =>
    obtain ⟨cs, hcs, hmem⟩ := ih fun e he => known e (List.mem_cons_of_mem d he)
    have passed (other : ¬d.IsFor target kind) (e : Declaration) :
        e ∈ cs ↔ e ∈ d :: ds ∧ e.IsFor target kind := by
      rw [hmem, List.mem_cons]
      constructor
      · exact fun ⟨he, hfor⟩ => ⟨.inr he, hfor⟩
      · rintro ⟨rfl | he, hfor⟩
        · exact absurd hfor other
        · exact ⟨he, hfor⟩
    rw [List.map_cons, candidates]
    by_cases hname : d.name = some target
    · obtain ⟨k, hk⟩ := known d List.mem_cons_self hname
      rw [if_pos hname, hk, hcs]
      by_cases hkind : k = kind
      · have hd : d.IsFor target kind := ⟨hname, by rw [hk, hkind]⟩
        refine ⟨d :: cs, by simp [bind, Except.bind, pure, Except.pure, hkind], fun e => ?_⟩
        rw [List.mem_cons, List.mem_cons, hmem]
        constructor
        · rintro (rfl | ⟨he, hfor⟩)
          · exact ⟨.inl rfl, hd⟩
          · exact ⟨.inr he, hfor⟩
        · rintro ⟨rfl | he, hfor⟩
          · exact .inl rfl
          · exact .inr ⟨he, hfor⟩
      · have other : ¬d.IsFor target kind := by
          intro hd
          have hok := hk.symm.trans hd.kind
          exact hkind (Except.ok.inj hok)
        exact ⟨cs, by simp [bind, Except.bind, pure, Except.pure, hkind], passed other⟩
    · have other : ¬d.IsFor target kind := fun hd => hname hd.name
      rw [if_neg hname]
      exact ⟨cs, hcs, passed other⟩

/-! ### The rename behind an alias -/

theorem renamedTo?_cases (readable : ∀ d ∈ ds, d.rename ≠ .malformed) (externName : Value) :
    (∃ d ∈ ds, ∃ r, d.rename = .given r ∧ externName = .text (Text.underscored r) ∧
      renamedTo? externName ds = .ok (some r)) ∨
    (∀ d ∈ ds, ∀ r, d.rename = .given r → externName ≠ .text (Text.underscored r)) ∧
      renamedTo? externName ds = .ok none := by
  induction ds with
  | nil => exact .inr ⟨by simp, rfl⟩
  | cons d ds ih =>
    have rest := ih fun e he => readable e (List.mem_cons_of_mem d he)
    rw [renamedTo?]
    cases hr : d.rename with
    | malformed => exact absurd hr (readable d List.mem_cons_self)
    | absent =>
      rcases rest with ⟨e, he, found⟩ | ⟨none, hok⟩
      · exact .inl ⟨e, List.mem_cons_of_mem d he, found⟩
      · refine .inr ⟨?_, hok⟩
        rintro e he r her
        rcases List.mem_cons.1 he with rfl | he
        · rw [hr] at her
          cases her
        · exact none e he r her
    | given r =>
      by_cases named : externName = .text (Text.underscored r)
      · exact .inl ⟨d, List.mem_cons_self, r, hr, named, by simp [named]⟩
      · simp only [if_neg named]
        rcases rest with ⟨e, he, found⟩ | ⟨none, hok⟩
        · exact .inl ⟨e, List.mem_cons_of_mem d he, found⟩
        · refine .inr ⟨?_, hok⟩
          rintro e he s hes
          rcases List.mem_cons.1 he with rfl | he
          · rw [hr] at hes
            cases hes
            exact named
          · exact none e he s hes

/-! ### The key of a list of declarations -/

/-- What the key for an alias can come from: a rename that gives the alias, else a declaration
without a rename, else any rename, else the name of the package. -/
inductive KeyOrigin (ds : List Declaration) (target : String) (externName : Value) :
    String → Prop where
  | renamed (d : Declaration) (r : String) (hd : d ∈ ds) (hr : d.rename = .given r)
      (named : externName = .text (Text.underscored r)) : KeyOrigin ds target externName r
  | plain (d : Declaration) (hd : d ∈ ds) (hr : d.rename = .absent)
      (none : ∀ e ∈ ds, ∀ r, e.rename = .given r → externName ≠ .text (Text.underscored r)) :
      KeyOrigin ds target externName target
  | first (d : Declaration) (r : String) (hd : d ∈ ds) (hr : d.rename = .given r)
      (all : ∀ e ∈ ds, e.rename ≠ .absent)
      (none : ∀ e ∈ ds, ∀ r, e.rename = .given r → externName ≠ .text (Text.underscored r)) :
      KeyOrigin ds target externName r
  | undeclared (none : ds = []) : KeyOrigin ds target externName target

theorem manifestKey_origin (readable : ∀ d ∈ ds, d.rename ≠ .malformed) (target : String)
    (externName : Value) :
    ∃ n, manifestKey target externName ds = .ok n ∧ KeyOrigin ds target externName n := by
  unfold manifestKey
  rcases renamedTo?_cases readable externName with ⟨d, hd, r, hr, named, hok⟩ | ⟨none, hok⟩
  · exact ⟨r, by rw [hok]; rfl, .renamed d r hd hr named⟩
  · rw [hok]
    by_cases plain : ∃ d ∈ ds, d.rename = .absent
    · obtain ⟨d, hd, hr⟩ := plain
      exact ⟨target, if_pos (List.any_eq_true.2 ⟨d, hd, by rw [hr]⟩), .plain d hd hr none⟩
    · have all : ∀ e ∈ ds, e.rename ≠ .absent := fun e he habsent => plain ⟨e, he, habsent⟩
      cases ds with
      | nil => exact ⟨target, rfl, .undeclared rfl⟩
      | cons d ds =>
        cases hr : d.rename with
        | absent => exact absurd hr (all d List.mem_cons_self)
        | malformed => exact absurd hr (readable d List.mem_cons_self)
        | given r =>
          refine ⟨r, ?_, .first d r List.mem_cons_self hr all none⟩
          obtain ⟨name, declared, rename⟩ := d
          cases hr
          refine if_neg fun any => ?_
          obtain ⟨e, he, hmatch⟩ := List.any_eq_true.1 any
          have habsent : e.rename = .absent := by
            cases h : e.rename <;> simp_all
          exact all e he habsent

namespace KeyOrigin

theorem exists_key {n : String} (h : KeyOrigin ds target externName n) (some : ds ≠ []) :
    ∃ d ∈ ds, d.keyOf target = n := by
  cases h with
  | renamed d r hd hr _ => exact ⟨d, hd, Declaration.keyOf_given hr target⟩
  | plain d hd hr _ => exact ⟨d, hd, Declaration.keyOf_absent hr target⟩
  | first d r hd hr _ _ => exact ⟨d, hd, Declaration.keyOf_given hr target⟩
  | undeclared none => exact absurd none some

/-- The alias of a declaration leads back to its key when equal aliases stand for equal keys. -/
theorem eq_keyOf {n : String} {library : Value} {d : Declaration} (hd : d ∈ ds)
    (readable : ∀ e ∈ ds, e.rename ≠ .malformed)
    (inj : ∀ e ∈ ds, e.aliasOf library = d.aliasOf library → e.keyOf target = d.keyOf target)
    (h : KeyOrigin ds target (d.aliasOf library) n) : n = d.keyOf target := by
  -- A declaration with a rename is found by it, so only one without a rename gets further.
  have plain (none : ∀ e ∈ ds, ∀ r, e.rename = .given r →
      d.aliasOf library ≠ .text (Text.underscored r)) : d.rename = .absent := by
    cases hr : d.rename with
    | absent => rfl
    | malformed => exact absurd hr (readable d hd)
    | given r => exact absurd (Declaration.aliasOf_given hr library) (none d hd r hr)
  cases h with
  | renamed e r he hr named =>
    have same : e.aliasOf library = d.aliasOf library := by
      rw [Declaration.aliasOf_given hr, named]
    rw [← inj e he same, Declaration.keyOf_given hr]
  | plain e he hr none => rw [Declaration.keyOf_absent (plain none)]
  | first e r he hr all none => exact absurd (plain none) (all d hd)
  | undeclared none =>
    rw [none] at hd
    exact absurd hd List.not_mem_nil

end KeyOrigin

theorem nameInManifest_origin
    (known : ∀ d ∈ ds, d.name = some target → ∃ k, declaredKind d.kind = .ok k)
    (readable : ∀ d ∈ ds, d.IsFor target kind → d.rename ≠ .malformed) (externName : Value) :
    ∃ cs n, (∀ d, d ∈ cs ↔ d ∈ ds ∧ d.IsFor target kind) ∧
      nameInManifest (ds.map some) target kind externName = .ok n ∧
      KeyOrigin cs target externName n := by
  obtain ⟨cs, hcs, hmem⟩ : ∃ cs, candidates target kind (ds.map some) = .ok cs ∧
      ∀ d, d ∈ cs ↔ d ∈ ds ∧ d.IsFor target kind := candidates_isOk known
  have hread : ∀ d ∈ cs, d.rename ≠ .malformed := fun d hd =>
    readable d ((hmem d).1 hd).1 ((hmem d).1 hd).2
  obtain ⟨n, hn, origin⟩ := manifestKey_origin hread target externName
  exact ⟨cs, n, hmem, bind_eq_ok.2 ⟨cs, hcs, hn⟩, origin⟩

/-! ### Keys that are answers -/

theorem mem_of_candidates {declared : List (Option Declaration)} {cs : List Declaration}
    (h : candidates target kind declared = .ok cs) {d : Declaration} (hd : d ∈ cs) :
    some d ∈ declared := by
  induction declared generalizing cs with
  | nil =>
    cases h
    cases hd
  | cons x declared ih =>
    cases x with
    | none => cases h
    | some e =>
      rw [candidates] at h
      split at h
      · obtain ⟨k, -, h⟩ := bind_eq_ok.1 h
        obtain ⟨rest, hrest, h⟩ := bind_eq_ok.1 h
        cases pure_eq_ok.1 h
        split at hd
        · rcases List.mem_cons.1 hd with rfl | hd
          · exact List.mem_cons_self
          · exact List.mem_cons_of_mem _ (ih hrest hd)
        · exact List.mem_cons_of_mem _ (ih hrest hd)
      · exact List.mem_cons_of_mem _ (ih h hd)

theorem mem_of_renamedTo? {r : String} (h : renamedTo? externName ds = .ok (some r)) :
    ∃ d ∈ ds, d.rename = .given r := by
  induction ds with
  | nil => cases h
  | cons d ds ih =>
    have rest (h : renamedTo? externName ds = .ok (some r)) :
        ∃ e ∈ d :: ds, e.rename = .given r := by
      obtain ⟨e, he, hr⟩ := ih h
      exact ⟨e, List.mem_cons_of_mem d he, hr⟩
    rw [renamedTo?] at h
    cases hd : d.rename with
    | absent => exact rest (by simpa [hd] using h)
    | malformed => simp [hd] at h
    | given s =>
      simp only [hd] at h
      split at h
      · cases h
        exact ⟨d, List.mem_cons_self, hd⟩
      · exact rest h

/-- A key is the name of the package or one of the renames, whatever the declarations. -/
theorem nameInManifest_mem {declared : List (Option Declaration)} {n : String}
    (h : nameInManifest declared target kind externName = .ok n) :
    n = target ∨ ∃ d, some d ∈ declared ∧ d.rename = .given n := by
  obtain ⟨cs, hcs, h⟩ := bind_eq_ok.1 h
  obtain ⟨found, hfound, h⟩ := bind_eq_ok.1 h
  cases found with
  | some r =>
    cases pure_eq_ok.1 h
    obtain ⟨d, hd, hr⟩ := mem_of_renamedTo? hfound
    exact .inr ⟨d, mem_of_candidates hcs hd, hr⟩
  | none =>
    dsimp only at h
    split at h
    · exact .inl (pure_eq_ok.1 h).symm
    · split at h
      · rename_i name declaredKind r rest
        cases pure_eq_ok.1 h
        exact .inr ⟨_, mem_of_candidates hcs List.mem_cons_self, rfl⟩
      · exact .inl (pure_eq_ok.1 h).symm

/-! ### Aliases and keys -/

/-- The keys of a manifest are recovered from aliases, whatever the order of the declarations and
whatever else is declared. -/
theorem recovers_nameInManifest
    (known : ∀ d ∈ ds, d.name = some target → ∃ k, declaredKind d.kind = .ok k)
    (readable : ∀ d ∈ ds, d.IsFor target kind → d.rename ≠ .malformed) :
    (∀ library : Value,
      (∀ d ∈ ds, ∀ e ∈ ds, d.IsFor target kind → e.IsFor target kind →
        d.aliasOf library = e.aliasOf library → d.keyOf target = e.keyOf target) →
      ∀ d ∈ ds, d.IsFor target kind →
        nameInManifest (ds.map some) target kind (d.aliasOf library) = .ok (d.keyOf target)) ∧
    ∀ externName : Value, ∃ n, nameInManifest (ds.map some) target kind externName = .ok n ∧
      ((∃ d ∈ ds, d.IsFor target kind) →
        ∃ d ∈ ds, d.IsFor target kind ∧ d.keyOf target = n) ∧
      ((¬∃ d ∈ ds, d.IsFor target kind) → n = target) := by
  constructor
  · intro library inj d hd hfor
    obtain ⟨cs, n, hmem, hn, origin⟩ := nameInManifest_origin known readable (d.aliasOf library)
    have hcs : d ∈ cs := (hmem d).2 ⟨hd, hfor⟩
    have hread : ∀ e ∈ cs, e.rename ≠ .malformed := fun e he =>
      readable e ((hmem e).1 he).1 ((hmem e).1 he).2
    have hkey : n = d.keyOf target := by
      refine origin.eq_keyOf hcs hread fun e he same => ?_
      obtain ⟨heds, hefor⟩ := (hmem e).1 he
      exact inj e heds d hd hefor hfor same
    rw [hn, hkey]
  · intro externName
    obtain ⟨cs, n, hmem, hn, origin⟩ := nameInManifest_origin known readable externName
    refine ⟨n, hn, ?_, ?_⟩
    · rintro ⟨d, hd, hfor⟩
      have hcs : cs ≠ [] := List.ne_nil_of_mem ((hmem d).2 ⟨hd, hfor⟩)
      obtain ⟨e, he, hkey⟩ := origin.exists_key hcs
      exact ⟨e, ((hmem e).1 he).1, ((hmem e).1 he).2, hkey⟩
    · intro nothing
      have hcs : cs = [] := List.eq_nil_iff_forall_not_mem.2 fun d hd =>
        nothing ⟨d, (hmem d).1 hd⟩
      cases origin with
      | renamed d r hd => exact absurd (hcs ▸ hd) List.not_mem_nil
      | plain d hd => rfl
      | first d r hd => exact absurd (hcs ▸ hd) List.not_mem_nil
      | undeclared => rfl

/-- Declarations of `serde` with and without a rename, one of them for tests, beside another package
under the same rename. -/
def renamedSerde : List Declaration :=
  [⟨some "serde", .text "dev", .given "serde_derive"⟩, ⟨some "json", .null, .given "serde-alt"⟩,
    ⟨some "serde", .null, .given "serde-alt"⟩, ⟨some "serde", .null, .absent⟩]

theorem recovers_renamedSerde :
    nameInManifest (renamedSerde.map some) "serde" .normal (.text "serde_alt") =
      .ok "serde-alt" ∧
    nameInManifest (renamedSerde.map some) "serde" .normal (.text "serde") = .ok "serde" ∧
    ∃ n, nameInManifest (renamedSerde.map some) "serde" .normal (.text "other") = .ok n ∧
      ∃ d ∈ renamedSerde, d.IsFor "serde" .normal ∧ d.keyOf "serde" = n := by
  have known : ∀ d ∈ renamedSerde, d.name = some "serde" →
      ∃ k, declaredKind d.kind = .ok k := by
    intro d hd _
    fin_cases hd
    · exact ⟨.development, rfl⟩
    · exact ⟨.normal, rfl⟩
    · exact ⟨.normal, rfl⟩
    · exact ⟨.normal, rfl⟩
  have readable : ∀ d ∈ renamedSerde, d.IsFor "serde" .normal → d.rename ≠ .malformed := by
    intro d hd _
    fin_cases hd <;> simp
  have renamed : (⟨some "serde", .null, .given "serde-alt"⟩ : Declaration) ∈ renamedSerde := by
    simp [renamedSerde]
  have plain : (⟨some "serde", .null, .absent⟩ : Declaration) ∈ renamedSerde := by
    simp [renamedSerde]
  -- Only the last two declarations are for the package as a normal dependency.
  have only : ∀ d ∈ renamedSerde, d.IsFor "serde" .normal →
      d = ⟨some "serde", .null, .given "serde-alt"⟩ ∨ d = ⟨some "serde", .null, .absent⟩ := by
    intro d hd hfor
    fin_cases hd
    · cases hfor.kind
    · have hname := hfor.name
      simp at hname
    · exact .inl rfl
    · exact .inr rfl
  have inj : ∀ d ∈ renamedSerde, ∀ e ∈ renamedSerde, d.IsFor "serde" .normal →
      e.IsFor "serde" .normal → d.aliasOf (.text "serde") = e.aliasOf (.text "serde") →
      d.keyOf "serde" = e.keyOf "serde" := by
    intro d hd e he hdf hef
    rcases only d hd hdf with rfl | rfl <;> rcases only e he hef with rfl | rfl <;>
      simp [Declaration.aliasOf, Declaration.keyOf, Text.underscored]
  obtain ⟨recovers, origin⟩ := recovers_nameInManifest known readable
  obtain ⟨n, hn, some, -⟩ := origin (.text "other")
  exact ⟨recovers _ inj _ renamed ⟨rfl, rfl⟩, recovers _ inj _ plain ⟨rfl, rfl⟩, n, hn,
    some ⟨_, plain, rfl, rfl⟩⟩

end UnusedDeps
