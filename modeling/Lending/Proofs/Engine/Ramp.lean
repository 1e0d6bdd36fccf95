import Lending.Proofs.Bucket
import Lending.Proofs.Engine.Parity

/-! Splits and their ramps.

A split takes effect at one place, between the route and what is executed: where the route ends at
the champion, the champion or the challenger is executed, by the arm of the application. So an
application that is routed elsewhere, also by the tree's default strategy, is decided as without a
split; one on the champion's arm is decided as without a split but for the arm that is noted; and
one on the challenger's arm keeps its route. The share of the challenger takes part in the arm
and in nothing else, and the arm of an application can only change once while the share grows, from
the champion to the challenger. -/
namespace Lending

namespace Configuration

/-- What is decided on an application under a split, or without one, by the buckets that a digest
gives. -/
def decideUnder (c : Configuration) (card : Scorecard) (digest : Digest) (split : Option Split)
    (a : Application) : Except Failure Decided :=
  c.decide card a.applicant a.context (Allotment.ofApplication split a digest)

/-- Without a split the application goes to the strategy. -/
def RoutesTo (c : Configuration) (a : Application) (id : String) (r : Routing) : Prop :=
  c.tree.route a.context = .ok r ∧ r.target? = some (.strategy id)

/-- The strategies of a split are part of the configuration. -/
structure HasArms (c : Configuration) (s : Split) : Prop where
  champion : (c.strategy? s.champion).isSome
  challenger : (c.strategy? s.challenger).isSome

theorem Admits.hasArms {c : Configuration} {s : Split} (h : c.Admits (some s)) : c.HasArms s := by
  obtain ⟨e, e', rfl, haccepts⟩ := h s rfl
  obtain ⟨_, hchampion, hchallenger, _⟩ := Engine.withSplit_ok haccepts
  exact ⟨hchampion, hchallenger⟩

theorem HasArms.strategyFor {c : Configuration} {s : Split} (h : c.HasArms s) (arm : Arm) :
    (c.strategy? (s.strategyFor arm)).isSome := by
  cases arm with
  | champion => exact h.champion
  | challenger => exact h.challenger

/-! ### Where a split takes effect -/

section
variable {c : Configuration} {card : Scorecard} {digest : Digest} {s : Split} {a : Application}
  {r : Routing}

/-- What is executed depends on the split through the allotted target and arm alone. -/
theorem finish_congr {p : Applicant} {allotment allotment' : Option Allotment}
    (h : ∀ target, r.target? = some target → allot allotment target = allot allotment' target) :
    c.finish card p allotment r = c.finish card p allotment' r := by
  unfold finish
  cases htarget : r.target? with
  | none => rfl
  | some target => simp only [h target htarget]

theorem decideUnder_congr {split split' : Option Split}
    (h : ∀ r target, c.tree.route a.context = .ok r → r.target? = some target →
      allot (Allotment.ofApplication split a digest) target =
        allot (Allotment.ofApplication split' a digest) target) :
    c.decideUnder card digest split a = c.decideUnder card digest split' a := by
  unfold decideUnder decide
  cases hroute : c.tree.route a.context with
  | error e => rfl
  | ok r => exact finish_congr fun target => h r target hroute

/-- Without a split no arm is noted. -/
theorem arm_unsplit {d : Decided} (h : c.decideUnder card digest none a = .ok d) :
    d.arm = none := by
  obtain ⟨r, _, hfinish⟩ := bind_ok_iff.1 h
  unfold finish at hfinish
  cases htarget : r.target? with
  | none => simp [htarget] at hfinish
  | some target =>
    simp only [htarget] at hfinish
    obtain ⟨o, _, hd⟩ := bind_ok_iff.1 hfinish
    cases hd
    cases target <;> rfl

/-- Elsewhere than at the champion a split has no effect. -/
theorem decideUnder_elsewhere (h : ∀ r, ¬ c.RoutesTo a s.champion r) :
    c.decideUnder card digest (some s) a = c.decideUnder card digest none a := by
  refine decideUnder_congr fun r target hroute htarget => ?_
  cases target with
  | assessment id => rfl
  | strategy id =>
    have hne : s.champion ≠ id := by
      rintro rfl
      exact h r ⟨hroute, htarget⟩
    exact allot_of_ne (.of digest a s) hne

theorem Closed.strategy_ok (C : c.Closed) {id : String} (h : c.Knows (.strategy id))
    (card : Scorecard) (p : Applicant) (params : Dict Value) : ∃ strategy o,
      c.strategy? id = some strategy ∧ strategy.execute c.catalog card p params = .ok o := by
  obtain ⟨strategy, hstrategy⟩ := Option.isSome_iff_exists.1 h
  obtain ⟨o, ho⟩ := C.execute_ok h card p params
  rw [execute, hstrategy] at ho
  exact ⟨strategy, o, hstrategy, ho⟩

/-- What a route to a strategy comes to, for a target and an arm that are allotted. -/
theorem decideUnder_routed {split : Option Split} {id other : String} {arm : Option Arm}
    {strategy : Strategy} {o : Outcome} (hroute : c.RoutesTo a id r)
    (hallot : allot (Allotment.ofApplication split a digest) (.strategy id) =
      (.strategy other, arm))
    (hstrategy : c.strategy? other = some strategy)
    (hexecute : strategy.execute c.catalog card a.applicant r.params = .ok o) :
    c.decideUnder card digest split a = .ok ⟨r, o, arm⟩ := by
  obtain ⟨hroute, htarget⟩ := hroute
  refine bind_ok_iff.2 ⟨r, (mapError_ok_iff _).2 hroute, ?_⟩
  rw [finish, htarget]
  simp only [hallot]
  refine bind_ok_iff.2 ⟨o, (mapError_ok_iff _).2 ?_, rfl⟩
  rw [execute, hstrategy]
  exact hexecute

/-- What a champion's route comes to with a split and without one. -/
structure Splits (c : Configuration) (card : Scorecard) (digest : Digest) (s : Split)
    (a : Application) (r : Routing) (arm : Arm) : Prop where
  unsplit : ∃ strategy o, c.strategy? s.champion = some strategy ∧
    strategy.execute c.catalog card a.applicant r.params = .ok o ∧
      c.decideUnder card digest none a = .ok ⟨r, o, none⟩
  split : ∃ strategy o, c.strategy? (s.strategyFor arm) = some strategy ∧
    strategy.execute c.catalog card a.applicant r.params = .ok o ∧
      c.decideUnder card digest (some s) a = .ok ⟨r, o, some arm⟩

variable (card digest) in
theorem splits_routed (C : c.Closed) (hs : c.HasArms s) (h : c.RoutesTo a s.champion r) :
    c.Splits card digest s a r (Allotment.of digest a s).arm := by
  constructor
  · obtain ⟨strategy, o, hstrategy, ho⟩ := C.strategy_ok hs.champion card a.applicant r.params
    exact ⟨strategy, o, hstrategy, ho, decideUnder_routed h rfl hstrategy ho⟩
  · obtain ⟨strategy, o, hstrategy, ho⟩ :=
      C.strategy_ok (hs.strategyFor (Allotment.of digest a s).arm) card a.applicant r.params
    have hallot := allot_champion (.of digest a s) rfl
    exact ⟨strategy, o, hstrategy, ho, decideUnder_routed h hallot hstrategy ho⟩

/-- What a split does with an application: it takes effect on the champion's routes, and leaves the
route as it is. -/
structure ChampionOnly (c : Configuration) (card : Scorecard) (digest : Digest) (s : Split)
    (a : Application) : Prop where
  elsewhere : (∀ r, ¬ c.RoutesTo a s.champion r) →
    c.decideUnder card digest (some s) a = c.decideUnder card digest none a ∧
      ∀ d, c.decideUnder card digest (some s) a = .ok d → d.arm = none
  champion : ∀ r, c.RoutesTo a s.champion r → (Allotment.of digest a s).arm = .champion →
    ∃ o, c.decideUnder card digest none a = .ok ⟨r, o, none⟩ ∧
      c.decideUnder card digest (some s) a = .ok ⟨r, o, some .champion⟩
  challenger : ∀ r, c.RoutesTo a s.champion r → (Allotment.of digest a s).arm = .challenger →
    ∃ o o' strategy, c.decideUnder card digest none a = .ok ⟨r, o, none⟩ ∧
      c.strategy? s.challenger = some strategy ∧
        strategy.execute c.catalog card a.applicant r.params = .ok o' ∧
          c.decideUnder card digest (some s) a = .ok ⟨r, o', some .challenger⟩

variable (card digest) in
theorem championOnly (C : c.Closed) (hs : c.HasArms s) : c.ChampionOnly card digest s a := by
  refine
    { elsewhere := fun h => ⟨decideUnder_elsewhere h, fun d hd => ?elsewhere⟩
      champion := fun r h harm => ?champion
      challenger := fun r h harm => ?challenger }
  case elsewhere =>
    rw [decideUnder_elsewhere h] at hd
    exact arm_unsplit hd
  case champion =>
    obtain ⟨⟨strategy, o, hstrategy, ho, hunsplit⟩, strategy', o', hstrategy', ho', hsplit⟩ :=
      splits_routed card digest C hs h
    rw [harm] at hstrategy' hsplit
    cases hstrategy.symm.trans hstrategy'
    cases ho.symm.trans ho'
    exact ⟨o, hunsplit, hsplit⟩
  case challenger =>
    obtain ⟨⟨_, o, _, _, hunsplit⟩, strategy, o', hstrategy, ho', hsplit⟩ :=
      splits_routed card digest C hs h
    rw [harm] at hstrategy hsplit
    exact ⟨o, o', strategy, hunsplit, hstrategy, ho', hsplit⟩

/-! ### Growing shares -/

/-- What is decided on an application where the challenger has this share. -/
def decideAt (c : Configuration) (card : Scorecard) (digest : Digest) (s : Split) (percent : Nat)
    (a : Application) : Except Failure Decided :=
  c.decideUnder card digest (some { s with percent := percent }) a

/-- An application moves from the champion to the challenger, on the route that it has. -/
structure MovesToChallenger (d d' : Decided) : Prop where
  before : d.arm = some .champion
  after : d'.arm = some .challenger
  routing : d'.routing = d.routing

theorem HasArms.share (h : c.HasArms s) (percent : Nat) :
    c.HasArms { s with percent := percent } :=
  ⟨h.champion, h.challenger⟩

/-- The share matters for the arm and for nothing else. -/
theorem decideAt_of_arm_eq {p q : Nat}
    (harm : Split.arm { s with percent := p } a.id digest =
      Split.arm { s with percent := q } a.id digest) :
    c.decideAt card digest s p a = c.decideAt card digest s q a := by
  refine decideUnder_congr fun r target _ _ => ?_
  have hallotted : (Allotment.of digest a { s with percent := p }).arm =
      (Allotment.of digest a { s with percent := q }).arm := congrArg a.arm.getD harm
  cases target with
  | assessment id => rfl
  | strategy id =>
    show allot (some (.of digest a { s with percent := p })) (.strategy id) =
      allot (some (.of digest a { s with percent := q })) (.strategy id)
    by_cases hid : s.champion = id
    · rw [allot_champion _ hid, allot_champion _ hid, hallotted]
      cases (Allotment.of digest a { s with percent := q }).arm <;> rfl
    · rw [allot_of_ne _ hid, allot_of_ne _ hid]

theorem arm_of_unrecorded (s : Split) (harm : a.arm = none) :
    (Allotment.of digest a s).arm = s.arm a.id digest := by
  rw [Allotment.arm, Allotment.of, harm]
  rfl

variable (card digest) in
/-- While the share grows, what is decided stays as it is or moves to the challenger. -/
theorem stays_or_moves (C : c.Closed) (hs : c.HasArms s) (hunrecorded : a.arm = none) {p q : Nat}
    (hle : p ≤ q) : c.decideAt card digest s q a = c.decideAt card digest s p a ∨
      ∃ d d', c.decideAt card digest s p a = .ok d ∧ c.decideAt card digest s q a = .ok d' ∧
        MovesToChallenger d d' := by
  -- A route matters only where the arms differ, and arms differ in one way.
  by_cases hsame : Split.arm { s with percent := q } a.id digest =
      Split.arm { s with percent := p } a.id digest
  · exact .inl (decideAt_of_arm_eq hsame)
  · obtain ⟨hp, hq⟩ : Split.arm { s with percent := p } a.id digest = .champion ∧
        Split.arm { s with percent := q } a.id digest = .challenger := by
      cases hp : Split.arm { s with percent := p } a.id digest with
      | champion =>
        rw [hp] at hsame
        cases hq : Split.arm { s with percent := q } a.id digest with
        | champion => exact absurd hq hsame
        | challenger => exact ⟨rfl, rfl⟩
      | challenger => exact absurd ((Split.arm_mono hle hp).trans hp.symm) hsame
    by_cases hroutes : ∃ r, c.RoutesTo a s.champion r
    · obtain ⟨r, hr⟩ := hroutes
      obtain ⟨_, o, _, _, hbefore⟩ := (splits_routed card digest C (hs.share p) hr).split
      obtain ⟨_, o', _, _, hafter⟩ := (splits_routed card digest C (hs.share q) hr).split
      rw [arm_of_unrecorded _ hunrecorded, hp] at hbefore
      rw [arm_of_unrecorded _ hunrecorded, hq] at hafter
      exact .inr ⟨_, _, hbefore, hafter, rfl, rfl, rfl⟩
    · have helsewhere (percent : Nat) :
          c.decideAt card digest s percent a = c.decideUnder card digest none a :=
        decideUnder_elsewhere fun r hr => hroutes ⟨r, hr⟩
      exact .inl ((helsewhere q).trans (helsewhere p).symm)

/-- How the share of the challenger matters for an application without a recorded arm. -/
structure Ramps (c : Configuration) (card : Scorecard) (digest : Digest) (s : Split)
    (a : Application) : Prop where
  /-- Wherever the application is routed. -/
  assigned : ∀ p q, p ≤ q → Split.arm { s with percent := p } a.id digest = .challenger →
    Split.arm { s with percent := q } a.id digest = .challenger ∧
      c.decideAt card digest s q a = c.decideAt card digest s p a
  /-- A challenger keeps its applications, with all that was decided on them. -/
  keeps : ∀ p q, p ≤ q → ∀ d, c.decideAt card digest s p a = .ok d → d.arm = some .challenger →
    c.decideAt card digest s q a = .ok d
  onward : ∀ p q, p ≤ q → c.decideAt card digest s q a = c.decideAt card digest s p a ∨
    ∃ d d', c.decideAt card digest s p a = .ok d ∧ c.decideAt card digest s q a = .ok d' ∧
      MovesToChallenger d d'
  at_zero : ∀ d, c.decideAt card digest s 0 a = .ok d → d.arm ≠ some .challenger
  at_hundred : ∀ r, c.RoutesTo a s.champion r →
    ∃ d, c.decideAt card digest s 100 a = .ok d ∧ d.routing = r ∧ d.arm = some .challenger

variable (card digest) in
theorem ramps (C : c.Closed) (hs : c.HasArms s) (hunrecorded : a.arm = none) :
    c.Ramps card digest s a := by
  refine
    { assigned := fun p q hle harm => ?assigned
      keeps := fun p q hle d hd harm => ?keeps
      onward := fun p q hle => stays_or_moves card digest C hs hunrecorded hle
      at_zero := fun d hd => ?at_zero
      at_hundred := fun r hr => ?at_hundred }
  case assigned =>
    have hlarger := Split.arm_mono hle harm
    exact ⟨hlarger, decideAt_of_arm_eq (hlarger.trans harm.symm)⟩
  case keeps =>
    rcases stays_or_moves card digest C hs hunrecorded hle with hstays | hmoves
    · exact hstays.trans hd
    · obtain ⟨before, _, hbefore, _, hmoves⟩ := hmoves
      cases hd.symm.trans hbefore
      cases harm.symm.trans hmoves.before
  case at_zero =>
    have honly : c.ChampionOnly card digest _ a := championOnly card digest C (hs.share 0)
    by_cases hroutes : ∃ r, c.RoutesTo a s.champion r
    · obtain ⟨r, hr⟩ := hroutes
      have harm : (Allotment.of digest a { s with percent := 0 }).arm = .champion := by
        rw [arm_of_unrecorded _ hunrecorded, Split.arm_zero]
      obtain ⟨o, _, ho⟩ := honly.champion r hr harm
      cases hd.symm.trans ho
      nofun
    · rw [(honly.elsewhere fun r hr => hroutes ⟨r, hr⟩).2 d hd]
      nofun
  case at_hundred =>
    obtain ⟨_, o, _, _, hsplit⟩ := (splits_routed card digest C (hs.share 100) hr).split
    rw [arm_of_unrecorded _ hunrecorded, Split.arm_hundred] at hsplit
    exact ⟨_, hsplit, rfl, rfl⟩

end

/-- **A split touches champion traffic only and ramps up monotonically**, whatever digest gives the
buckets. The program's buckets come from the first eight bytes of the SHA-256 digest. -/
theorem split_ramps {catalog : Catalog} {tree : Tree} {strategies : List Strategy}
    {assessments : List Assessment} {c : Configuration}
    (hc : assemble catalog tree strategies assessments = .ok c) {s : Split}
    (hs : c.Admits (some s)) (card : Scorecard) (a : Application) :
    (∀ digest, c.ChampionOnly card digest s a ∧ (a.arm = none → c.Ramps card digest s a)) ∧
      ∀ id, Split.bucket id =
        Digest.number ((Digest.bytes (Digest.sha256 id.toUTF8.toList)).take 8) % 100 := by
  obtain ⟨_, C⟩ := assemble_closed hc
  refine ⟨fun digest => ?_, Split.bucket_eq⟩
  exact ⟨championOnly card digest C hs.hasArms, ramps card digest C hs.hasArms⟩

/-- On the arm that is recorded, and on that of a challenger with all of the applications. -/
theorem split_ramps_repeat :
    assemble .standard Tree.lendingTree lendingStrategies lendingAssessments =
        .ok lendingConfiguration ∧
      lendingConfiguration.Admits (some lendingSplit) ∧
      (∃ o, lendingConfiguration.decideUnder .ofApplication Digest.sha256 (some lendingSplit)
          lendingApplication = .ok ⟨Tree.repeatRoute, o, some .challenger⟩) ∧
      ∃ d, lendingConfiguration.decideAt .ofApplication Digest.sha256 lendingSplit 100
          { lendingApplication with arm := none } = .ok d ∧
        d.routing = Tree.repeatRoute ∧ d.arm = some .challenger := by
  have hroutes : lendingConfiguration.RoutesTo lendingApplication "repeat_v2" Tree.repeatRoute := by
    have hroute : Tree.lendingTree.route Tree.repeatCustomer = .ok Tree.repeatRoute := by cbv
    exact ⟨hroute, rfl⟩
  obtain ⟨hsplit, -⟩ :=
    split_ramps assemble_lending admits_lendingSplit .ofApplication lendingApplication
  obtain ⟨honly, -⟩ := hsplit Digest.sha256
  obtain ⟨hsplit, -⟩ := split_ramps assemble_lending admits_lendingSplit .ofApplication
    { lendingApplication with arm := none }
  obtain ⟨-, hramps⟩ := hsplit Digest.sha256
  obtain ⟨_, o, _, _, _, _, ho⟩ := honly.challenger _ hroutes rfl
  exact ⟨assemble_lending, admits_lendingSplit, ⟨o, ho⟩, (hramps rfl).at_hundred _ hroutes⟩

end Configuration

end Lending
