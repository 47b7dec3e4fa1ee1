import Estela.Lib.FencedCalls

set_option autoImplicit false

/- Calls that take several moves of a memory that all programs share. Programs that keep
to a lock, one of them in such a call at a time, leave what they leave when each call
happens at once. -/
namespace LongCalls

open CallProgram (Prog)
open FencedCalls
open Relation (ReflTransGen)

variable {C : Type} {R : C → Type} {α J K V A S M P : Type}

/-- How the long calls go about the memory, from entering to leaving, with `P` for what is
left of one. The others leave the memory alone. -/
structure Course (C : Type) (R : C → Type) (M P : Type) where
  long : C → Prop
  enter : C → M → P → Prop
  move : P × M → P × M → Prop
  leave : (c : C) → P → M → R c → M → Prop

/-- A whole call, with nothing else in between. -/
inductive Course.Whole (course : Course C R M P) (m : M) (c : C) (answer : R c) : M → Prop
  | short (short : ¬ course.long c) : Whole course m c answer m
  | long (long : course.long c) {part part' : P} {m' m'' : M} (enter : course.enter c m part)
      (moves : ReflTransGen course.move (part, m) (part', m'))
      (leave : course.leave c part' m' answer m'') : Whole course m c answer m''

/-- Calls that happen at once: what they do to the memory, and to all else. -/
def Course.AtOnce (course : Course C R M P) (step : S → (c : C) → R c → S → Prop) (w : S × M)
    (c : C) (answer : R c) (w' : S × M) : Prop :=
  step w.1 c answer w'.1 ∧ course.Whole w.2 c answer w'.2

/-- Programs that run together, and what is left of the calls that they are in. -/
structure Threads (C : Type) (R : C → Type) (α J A S M P : Type) where
  pool : Pool C R α J A (S × M)
  inside : J → Option P

/-- No two programs are in long calls. -/
def Threads.Locked (q : Threads C R α J A S M P) : Prop :=
  ∀ i j, q.inside i ≠ none → q.inside j ≠ none → i = j

variable [DecidableEq J]

/-- A program after a call. -/
def answered (meaning : Meaning C R α K V A) (p : Pool C R α J A (S × M)) (j : J) (c : C)
    (next : R c → Prog C R α) (answer : R c) (w : S × M) : Pool C R α J A (S × M) where
  progs := Function.update p.progs j (next answer)
  world := w
  log := match meaning.kind c with
    | .act a => p.log ++ [(j, a, meaning.ok c answer)]
    | _ => p.log

/-- A short call, or a move of a long one. -/
inductive Move (meaning : Meaning C R α K V A) (order : J → J → Prop)
    (step : S → (c : C) → R c → S → Prop) (course : Course C R M P) :
    Threads C R α J A S M P → Threads C R α J A S M P → Prop
  | call (q : Threads C R α J A S M P) (j : J) (c : C) (next : R c → Prog C R α)
      (here : q.pool.progs j = .call c next)
      (turn : ∀ i, order i j → ∃ value, q.pool.progs i = .ret value) (short : ¬ course.long c)
      (answer : R c) (s : S) (move : step q.pool.world.1 c answer s) :
      Move meaning order step course q
        { q with pool := answered meaning q.pool j c next answer (s, q.pool.world.2) }
  | enter (q : Threads C R α J A S M P) (j : J) (c : C) (next : R c → Prog C R α)
      (here : q.pool.progs j = .call c next)
      (turn : ∀ i, order i j → ∃ value, q.pool.progs i = .ret value) (long : course.long c)
      (outside : q.inside j = none) (part : P) (enter : course.enter c q.pool.world.2 part) :
      Move meaning order step course q
        { q with inside := Function.update q.inside j (some part) }
  | go (q : Threads C R α J A S M P) (j : J) (part part' : P) (m : M)
      (inside : q.inside j = some part) (move : course.move (part, q.pool.world.2) (part', m)) :
      Move meaning order step course q
        { pool := { q.pool with world := (q.pool.world.1, m) }
          inside := Function.update q.inside j (some part') }
  | leave (q : Threads C R α J A S M P) (j : J) (c : C) (next : R c → Prog C R α)
      (here : q.pool.progs j = .call c next) (part : P) (inside : q.inside j = some part)
      (answer : R c) (m : M) (leave : course.leave c part q.pool.world.2 answer m) (s : S)
      (move : step q.pool.world.1 c answer s) :
      Move meaning order step course q
        { pool := answered meaning q.pool j c next answer (s, m)
          inside := Function.update q.inside j none }

/-- What programs that keep to the lock do together, from their first calls on. -/
def Locked (meaning : Meaning C R α K V A) (order : J → J → Prop)
    (step : S → (c : C) → R c → S → Prop) (course : Course C R M P) (progs : J → Prog C R α)
    (w : S × M) (q : Threads C R α J A S M P) : Prop :=
  ReflTransGen (fun q q' => Move meaning order step course q q' ∧ q'.Locked)
    ⟨Pool.start progs w, fun _ => none⟩ q

section

variable {meaning : Meaning C R α K V A} {order : J → J → Prop}
  {step : S → (c : C) → R c → S → Prop} {course : Course C R M P} {progs : J → Prog C R α}
  {w : S × M} {q q' : Threads C R α J A S M P} {p : Pool C R α J A (S × M)}

/-- The call a program is in, from when it was its turn. -/
structure Entered (order : J → J → Prop) (course : Course C R M P)
    (q : Threads C R α J A S M P) (m : M) (j : J) (part : P) (c : C) (next : R c → Prog C R α)
    (first : P) : Prop where
  here : q.pool.progs j = .call c next
  turn : ∀ i, order i j → ∃ value, q.pool.progs i = .ret value
  long : course.long c
  enter : course.enter c m first
  moves : ReflTransGen course.move (first, m) (part, q.pool.world.2)

/-- Programs in calls, and the same programs with the call that one of them is in still
to come. -/
structure Before (order : J → J → Prop) (course : Course C R M P)
    (q : Threads C R α J A S M P) (p : Pool C R α J A (S × M)) : Prop where
  progs : p.progs = q.pool.progs
  log : p.log = q.pool.log
  rest : p.world.1 = q.pool.world.1
  outside : (∀ j, q.inside j = none) → p.world.2 = q.pool.world.2
  inside : ∀ j part, q.inside j = some part →
    ∃ c next first, Entered order course q p.world.2 j part c next first

omit [DecidableEq J] in
theorem Before.eq (before : Before order course q p) (outside : ∀ j, q.inside j = none) :
    p = q.pool := by
  obtain ⟨⟨progs, ⟨s, m⟩, log⟩, inside⟩ := q
  obtain ⟨progs', ⟨s', m'⟩, log'⟩ := p
  obtain ⟨rfl, rfl, rfl, same, -⟩ := before
  obtain rfl := same outside
  rfl

theorem returned_answered {j : J} {c : C} {next : R c → Prog C R α} {answer : R c} {v : S × M}
    (here : p.progs j = .call c next) {i : J} (returned : ∃ value, p.progs i = .ret value) :
    ∃ value, (answered meaning p j c next answer v).progs i = .ret value := by
  obtain ⟨value, ends⟩ := returned
  have other : i ≠ j := by
    rintro rfl
    rw [here] at ends
    cases ends
  exact ⟨value, (Function.update_of_ne other _ _).trans ends⟩

/-- A short call goes by whoever is in a long one. -/
theorem Before.call (before : Before order course q p) {j : J} {c : C} {next : R c → Prog C R α}
    (here : q.pool.progs j = .call c next) (short : ¬ course.long c) (answer : R c) (s : S) :
    Before order course
      { q with pool := answered meaning q.pool j c next answer (s, q.pool.world.2) }
      (answered meaning p j c next answer (s, p.world.2)) := by
  obtain ⟨progs, log, rest, outside, inside⟩ := before
  refine ⟨?_, ?_, rfl, outside, fun i part there => ?_⟩
  · simp only [answered, progs]
  · simp only [answered, log]
  · obtain ⟨c', next', first, entered⟩ := inside i part there
    have other : i ≠ j := by
      rintro rfl
      obtain ⟨rfl, -⟩ := Prog.call.inj (here.symm.trans entered.here)
      exact short entered.long
    exact ⟨c', next', first, (Function.update_of_ne other _ _).trans entered.here,
      fun l earlier => returned_answered here (entered.turn l earlier), entered.long,
      entered.enter, entered.moves⟩

/-- Under the lock, whoever enters finds the memory as the calls before left it. -/
theorem Before.enter (before : Before order course q p) {j : J} {c : C}
    {next : R c → Prog C R α} (here : q.pool.progs j = .call c next)
    (turn : ∀ i, order i j → ∃ value, q.pool.progs i = .ret value) (long : course.long c)
    (outside : q.inside j = none) {part : P} (enter : course.enter c q.pool.world.2 part)
    (locked : Threads.Locked { q with inside := Function.update q.inside j (some part) }) :
    Before order course { q with inside := Function.update q.inside j (some part) } p := by
  have alone (i : J) : q.inside i = none := by
    by_contra there
    have other : i ≠ j := fun same => there (same ▸ outside)
    exact other (locked i j (by simpa [other] using there) (by simp))
  have same := before.outside alone
  refine ⟨before.progs, before.log, before.rest, fun none_ => ?_, fun i part' there => ?_⟩
  · have now := none_ j
    simp only [Function.update_self] at now
    cases now
  · by_cases own : i = j
    · subst own
      simp only [Function.update_self] at there
      obtain rfl := Option.some.inj there
      exact ⟨c, next, part, here, turn, long, same ▸ enter, same ▸ .refl⟩
    · simp only [Function.update_of_ne own, alone i] at there
      cases there

theorem Before.go (before : Before order course q p) (locked : q.Locked) {j : J}
    {part part' : P} {m : M} (inside : q.inside j = some part)
    (move : course.move (part, q.pool.world.2) (part', m)) :
    Before order course
      { pool := { q.pool with world := (q.pool.world.1, m) }
        inside := Function.update q.inside j (some part') } p := by
  refine ⟨before.progs, before.log, before.rest, fun none_ => ?_, fun i part'' there => ?_⟩
  · have now := none_ j
    simp only [Function.update_self] at now
    cases now
  · obtain rfl : i = j := by
      by_contra other
      simp only [Function.update_of_ne other] at there
      exact other (locked i j (by simp [there]) (by simp [inside]))
    simp only [Function.update_self] at there
    obtain rfl := Option.some.inj there
    obtain ⟨c, next, first, entered⟩ := before.inside i part inside
    exact ⟨c, next, first, entered.here, entered.turn, entered.long, entered.enter,
      entered.moves.tail move⟩

/-- Whoever leaves has made its call at once. -/
theorem Before.leave (meaning : Meaning C R α K V A) (before : Before order course q p)
    (locked : q.Locked) {j : J} {c : C} {next : R c → Prog C R α}
    (here : q.pool.progs j = .call c next) {part : P} (inside : q.inside j = some part)
    {answer : R c} {m : M} (leave : course.leave c part q.pool.world.2 answer m) {s : S}
    (move : step q.pool.world.1 c answer s) :
    FencedCalls.Move meaning order (course.AtOnce step) p
        (answered meaning p j c next answer (s, m)) ∧
      Before order course
        { pool := answered meaning q.pool j c next answer (s, m)
          inside := Function.update q.inside j none }
        (answered meaning p j c next answer (s, m)) := by
  obtain ⟨c', next', first, entered⟩ := before.inside j part inside
  obtain ⟨rfl, same⟩ := Prog.call.inj (here.symm.trans entered.here)
  have whole : course.Whole p.world.2 c answer m :=
    .long entered.long entered.enter entered.moves leave
  have moved : course.AtOnce step p.world c answer (s, m) := ⟨before.rest ▸ move, whole⟩
  constructor
  · exact .call p j c next (by rw [before.progs, here])
      (by rw [before.progs]; exact entered.turn) answer (s, m) moved
  · refine ⟨?_, ?_, rfl, fun _ => rfl, fun i part' there => ?_⟩
    · simp only [answered, before.progs]
    · simp only [answered, before.log]
    · by_cases own : i = j
      · subst own
        simp only [Function.update_self] at there
        cases there
      · simp only [Function.update_of_ne own] at there
        exact absurd (locked i j (by simp [there]) (by simp [inside])) own

/-- What programs that keep to the lock have done, they do when each call happens at once,
but for the call that one of them may be in. -/
theorem Locked.before (runs : Locked meaning order step course progs w q) :
    q.Locked ∧ ∃ p, Reaches meaning order (course.AtOnce step) progs w p ∧
      Before order course q p := by
  induction runs with
  | refl =>
      exact ⟨fun i j there => absurd rfl there, Pool.start progs w, .refl, rfl, rfl, rfl,
        fun _ => rfl, nofun⟩
  | tail _ move ih =>
      obtain ⟨move, locked'⟩ := move
      obtain ⟨locked, p, reaches, before⟩ := ih
      refine ⟨locked', ?_⟩
      cases move with
      | call j c next here turn short answer s move =>
          have moved : FencedCalls.Move meaning order (course.AtOnce step) p
              (answered meaning p j c next answer (s, p.world.2)) :=
            .call p j c next (by rw [before.progs, here]) (by rw [before.progs]; exact turn)
              answer _ ⟨before.rest ▸ move, .short short⟩
          exact ⟨_, reaches.tail moved, before.call here short answer s⟩
      | enter j c next here turn long outside part enter =>
          exact ⟨p, reaches, before.enter here turn long outside enter locked'⟩
      | go j part part' m inside move =>
          exact ⟨p, reaches, before.go locked inside move⟩
      | leave j c next here part inside answer m leave s move =>
          obtain ⟨moved, after⟩ :=
            before.leave meaning locked here inside leave move
          exact ⟨_, reaches.tail moved, after⟩

/-- Once all have returned, nobody is in a call. -/
theorem Locked.atOnce (runs : Locked meaning order step course progs w q)
    (returned : ∀ j, ∃ value, q.pool.progs j = .ret value) :
    Reaches meaning order (course.AtOnce step) progs w q.pool := by
  obtain ⟨-, p, reaches, before⟩ := runs.before
  have outside (j : J) : q.inside j = none := by
    cases there : q.inside j with
    | none => rfl
    | some part =>
        obtain ⟨c, next, first, entered⟩ := before.inside j part there
        obtain ⟨value, ends⟩ := returned j
        exact nomatch ends.symm.trans entered.here
  exact before.eq outside ▸ reaches

omit [DecidableEq J] in
theorem locked_nobody (pool : Pool C R α J A (S × M)) :
    Threads.Locked (⟨pool, fun _ => none⟩ : Threads C R α J A S M P) :=
  fun _ _ there => absurd rfl there

/-- Only program `j` is in a call. -/
def only (j : J) (part : P) : J → Option P := Function.update (fun _ => none) j (some part)

theorem only_self (j : J) (part : P) : only j part j = some part := Function.update_self ..

theorem locked_only (pool : Pool C R α J A (S × M)) (j : J) (part : P) :
    Threads.Locked (⟨pool, only j part⟩ : Threads C R α J A S M P) := by
  have one (i : J) (there : only j part i ≠ none) : i = j := by
    by_contra other
    exact there (Function.update_of_ne other _ _)
  exact fun i i' there there' => (one i there).trans (one i' there').symm

theorem update_only (j : J) (part : P) (left : Option P) :
    Function.update (only j part) j left = Function.update (fun _ => none) j left :=
  Function.update_idem ..

theorem Locked.moves {j : J} {first : P}
    (runs : Locked meaning order step course progs w ⟨p, only j first⟩) {target : P × M}
    (moves : ReflTransGen course.move (first, p.world.2) target) :
    Locked meaning order step course progs w
      ⟨{ p with world := (p.world.1, target.2) }, only j target.1⟩ := by
  induction moves with
  | refl => exact runs
  | @tail middle target _ move ih =>
      have went : Move meaning order step course
          ⟨{ p with world := (p.world.1, middle.2) }, only j middle.1⟩ _ :=
        .go _ j middle.1 target.1 target.2 (only_self j middle.1) move
      rw [update_only] at went
      exact ih.tail ⟨went, locked_only _ j target.1⟩

/-- One long call after another keeps to the lock. -/
theorem locked_of_reaches (reaches : Reaches meaning order (course.AtOnce step) progs w p) :
    Locked meaning order step course progs w ⟨p, fun _ => none⟩ := by
  induction reaches with
  | refl => exact .refl
  | @tail p _ _ move ih =>
      cases move with
      | call j c next here turn answer v move =>
          obtain ⟨s, m⟩ := v
          obtain ⟨move, whole⟩ := move
          cases whole with
          | short short =>
              exact ih.tail ⟨.call ⟨p, _⟩ j c next here turn short answer s move, locked_nobody _⟩
          | @long isLong first last m' _ enter moves leave =>
              have entered := ih.tail ⟨Move.enter ⟨p, _⟩ j c next here turn isLong rfl first enter,
                locked_only _ j first⟩
              have moved := Locked.moves entered moves
              have left : Move meaning order step course
                  ⟨{ p with world := (p.world.1, m') }, only j last⟩ _ :=
                .leave _ j c next here last (only_self j last) answer m leave s move
              rw [update_only, Function.update_eq_self_iff.mpr rfl] at left
              exact moved.tail ⟨left, locked_nobody _⟩

end

end LongCalls
