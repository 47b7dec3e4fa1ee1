import Mathlib.Logic.Function.Basic
import Mathlib.Tactic.Common

set_option autoImplicit false

/- A write-back cache over a memory that another party reads and writes behind
it. Words belong to lines; what the last writes left in every word is the
reference that both sides are compared with. -/
namespace WriteBack

variable {W L V : Type}

inductive Tag
  | absent
  | clean
  | dirty
  deriving DecidableEq, Repr

structure State (W L V : Type) where
  mem : W → V
  cached : W → V
  tag : L → Tag

/-- What the cached side reads. -/
def view (line : W → L) (s : State W L V) (w : W) : V :=
  if s.tag (line w) = .absent then s.mem w else s.cached w

/-- A line leaves the cache, written back if it is dirty. -/
def evict [DecidableEq L] (line : W → L) (s : State W L V) (l : L) : State W L V where
  mem w := if line w = l ∧ s.tag l = .dirty then s.cached w else s.mem w
  cached := s.cached
  tag := Function.update s.tag l .absent

/-- A line that is not cached is brought in. -/
def prefetch [DecidableEq L] (line : W → L) (s : State W L V) (l : L) : State W L V :=
  if s.tag l = .absent then
    { mem := s.mem
      cached := fun w => if line w = l then s.mem w else s.cached w
      tag := Function.update s.tag l .clean }
  else s

/-- A write of the cached side, into a line that is brought in for it. -/
def cachedWrite [DecidableEq W] [DecidableEq L] (line : W → L) (s : State W L V) (w : W) (v : V) :
    State W L V where
  mem := s.mem
  cached := Function.update (prefetch line s (line w)).cached w v
  tag := Function.update s.tag (line w) .dirty

/-- The dirty ones of the selected lines are written back. -/
def flush (line : W → L) (s : State W L V) (selected : L → Bool) : State W L V where
  mem w := if selected (line w) ∧ s.tag (line w) = .dirty then s.cached w else s.mem w
  cached := s.cached
  tag l := if selected l ∧ s.tag l = .dirty then .clean else s.tag l

/-- The selected lines are dropped, dirty or not. -/
def inval (s : State W L V) (selected : L → Bool) : State W L V where
  mem := s.mem
  cached := s.cached
  tag l := if selected l then .absent else s.tag l

/-- A write of the other party. -/
def memWrite [DecidableEq W] (s : State W L V) (w : W) (v : V) : State W L V :=
  { s with mem := Function.update s.mem w v }

/-- Memory and cache against the last writes: no `quiet` line is dirty, and only
in `stale` lines may the cache be behind the memory. -/
structure Coherent (line : W → L) (quiet stale : L → Prop) (last : W → V) (s : State W L V) :
    Prop where
  memory : ∀ w, s.tag (line w) ≠ .dirty → s.mem w = last w
  clean : ∀ l, quiet l → s.tag l ≠ .dirty
  within : ∀ l, stale l → quiet l
  cache : ∀ w, ¬ stale (line w) → view line s w = last w

variable {line : W → L} {quiet stale : L → Prop} {last : W → V} {s : State W L V}

/-- Where a line may be stale, the memory holds the last writes. -/
theorem Coherent.mem_eq (coherent : Coherent line quiet stale last s) (w : W)
    (settled : quiet (line w)) : s.mem w = last w :=
  coherent.memory w (coherent.clean _ settled)

theorem Coherent.cached_eq (coherent : Coherent line quiet stale last s) (w : W)
    (dirty : s.tag (line w) = .dirty) : s.cached w = last w := by
  have fresh : ¬ stale (line w) := fun isStale =>
    coherent.clean _ (coherent.within _ isStale) dirty
  have seen := coherent.cache w fresh
  simpa [view, dirty] using seen

/-- Fewer lines known to be quiet, more that may be stale. -/
theorem Coherent.mono {quiet' stale' : L → Prop} (coherent : Coherent line quiet stale last s)
    (fewer : ∀ l, quiet' l → quiet l) (more : ∀ l, stale l → stale' l)
    (within : ∀ l, stale' l → quiet' l) : Coherent line quiet' stale' last s where
  memory := coherent.memory
  clean l isQuiet := coherent.clean l (fewer l isQuiet)
  within := within
  cache w fresh := coherent.cache w (fun isStale => fresh (more _ isStale))

theorem Coherent.evict [DecidableEq L] (coherent : Coherent line quiet stale last s) (l : L) :
    Coherent line quiet stale last (evict line s l) where
  memory w notDirty := by
    by_cases here : line w = l
    · subst here
      by_cases dirty : s.tag (line w) = .dirty
      · simp only [WriteBack.evict, dirty, and_self, ↓reduceIte]
        exact coherent.cached_eq w dirty
      · simp only [WriteBack.evict, dirty, and_false, ↓reduceIte]
        exact coherent.memory w dirty
    · simp only [WriteBack.evict, here, false_and, ↓reduceIte]
      exact coherent.memory w (by simpa [WriteBack.evict, here] using notDirty)
  clean l' isQuiet := by
    by_cases here : l' = l
    · simp [WriteBack.evict, here]
    · simpa [WriteBack.evict, here] using coherent.clean l' isQuiet
  within := coherent.within
  cache w fresh := by
    have seen := coherent.cache w fresh
    by_cases here : line w = l
    · subst here
      by_cases dirty : s.tag (line w) = .dirty
      · simpa [view, WriteBack.evict, dirty] using coherent.cached_eq w dirty
      · simpa [view, WriteBack.evict, dirty] using coherent.memory w dirty
    · simpa [view, WriteBack.evict, here] using seen

theorem Coherent.prefetch [DecidableEq L] (coherent : Coherent line quiet stale last s) (l : L) :
    Coherent line quiet stale last (prefetch line s l) := by
  unfold WriteBack.prefetch
  split
  case isFalse => exact coherent
  rename_i absent
  refine ⟨fun w notDirty => ?_, fun l' isQuiet => ?_, coherent.within, fun w fresh => ?_⟩
  · by_cases here : line w = l
    · exact coherent.memory w (by simp [here, absent])
    · exact coherent.memory w (by simpa [here] using notDirty)
  · by_cases here : l' = l
    · simp [here]
    · simpa [here] using coherent.clean l' isQuiet
  · by_cases here : line w = l
    · simpa [view, here] using coherent.memory w (by simp [here, absent])
    · simpa [view, here] using coherent.cache w fresh

theorem Coherent.cachedWrite [DecidableEq W] [DecidableEq L]
    (coherent : Coherent line quiet stale last s) (w : W) (v : V) (free : ¬ quiet (line w)) :
    Coherent line quiet stale (Function.update last w v) (cachedWrite line s w v) where
  memory w' notDirty := by
    by_cases here : line w' = line w
    · simp [WriteBack.cachedWrite, here] at notDirty
    · have other : w' ≠ w := fun same => here (by rw [same])
      simp only [WriteBack.cachedWrite, Function.update_of_ne other]
      exact coherent.memory w' (by simpa [WriteBack.cachedWrite, here] using notDirty)
  clean l isQuiet := by
    have other : l ≠ line w := fun same => free (same ▸ isQuiet)
    simpa [WriteBack.cachedWrite, other] using coherent.clean l isQuiet
  within := coherent.within
  cache w' fresh := by
    have seen := (coherent.prefetch (line w)).cache w' fresh
    by_cases same : w' = w
    · subst same
      simp [view, WriteBack.cachedWrite]
    · rw [Function.update_of_ne same, ← seen]
      by_cases here : line w' = line w
      · have present : (WriteBack.prefetch line s (line w)).tag (line w) ≠ .absent := by
          by_cases absent : s.tag (line w) = .absent <;> simp [WriteBack.prefetch, absent]
        simp [view, WriteBack.cachedWrite, here, same, present]
      · by_cases absent : s.tag (line w) = .absent <;>
          simp [view, WriteBack.cachedWrite, WriteBack.prefetch, here, same, absent]

/-- Written back lines are quiet. -/
theorem Coherent.flush (coherent : Coherent line quiet stale last s) (selected : L → Bool) :
    Coherent line (fun l => quiet l ∨ selected l) stale last (flush line s selected) where
  memory w notDirty := by
    by_cases written : selected (line w) = true ∧ s.tag (line w) = .dirty
    · simpa [WriteBack.flush, written] using coherent.cached_eq w written.2
    · simp only [WriteBack.flush, written, ↓reduceIte] at notDirty ⊢
      exact coherent.memory w notDirty
  clean l isQuiet := by
    by_cases written : selected l = true ∧ s.tag l = .dirty
    · simp [WriteBack.flush, written]
    · simp only [WriteBack.flush, written, ↓reduceIte]
      rcases isQuiet with before | chosen
      · exact coherent.clean l before
      · exact fun dirty => written ⟨chosen, dirty⟩
  within l isStale := Or.inl (coherent.within l isStale)
  cache w fresh := by
    have seen := coherent.cache w fresh
    by_cases written : selected (line w) = true ∧ s.tag (line w) = .dirty
    · simpa [view, WriteBack.flush, written] using coherent.cached_eq w written.2
    · simpa [view, WriteBack.flush, written] using seen

/-- Dropping lines that are not dirty loses nothing, and ends their staleness. -/
theorem Coherent.inval (coherent : Coherent line quiet stale last s) (selected : L → Bool)
    (safe : ∀ l, selected l = true → quiet l) :
    Coherent line quiet (fun l => stale l ∧ selected l = false) last (inval s selected) where
  memory w notDirty := by
    by_cases chosen : selected (line w) = true
    · exact coherent.mem_eq w (safe _ chosen)
    · exact coherent.memory w (by simpa [WriteBack.inval, chosen] using notDirty)
  clean l isQuiet := by
    by_cases chosen : selected l = true
    · simp [WriteBack.inval, chosen]
    · simpa [WriteBack.inval, chosen] using coherent.clean l isQuiet
  within l isStale := coherent.within l isStale.1
  cache w fresh := by
    by_cases chosen : selected (line w) = true
    · simpa [view, WriteBack.inval, chosen] using coherent.mem_eq w (safe _ chosen)
    · have seen := coherent.cache w (fun isStale => fresh ⟨isStale, by simpa using chosen⟩)
      simpa [view, WriteBack.inval, chosen] using seen

/-- The other party may write where the cache is given up as stale. -/
theorem Coherent.memWrite [DecidableEq W] (coherent : Coherent line quiet stale last s) (w : W)
    (v : V) (given : stale (line w)) :
    Coherent line quiet stale (Function.update last w v) (memWrite s w v) where
  memory w' notDirty := by
    by_cases same : w' = w
    · subst same
      simp [WriteBack.memWrite]
    · simpa [WriteBack.memWrite, same] using coherent.memory w' notDirty
  clean := coherent.clean
  within := coherent.within
  cache w' fresh := by
    have other : w' ≠ w := fun same => fresh (same ▸ given)
    have seen := coherent.cache w' fresh
    simpa [view, WriteBack.memWrite, other] using seen

/-- Outside of `stale` lines, what is cached clean is what memory holds. -/
def Current (line : W → L) (stale : L → Prop) (s : State W L V) : Prop :=
  ∀ w, ¬ stale (line w) → s.tag (line w) = .clean → s.cached w = s.mem w

theorem Current.mono {stale' : L → Prop} (current : Current line stale s)
    (more : ∀ l, stale l → stale' l) : Current line stale' s :=
  fun w fresh => current w fun isStale => fresh (more _ isStale)

theorem Current.evict [DecidableEq L] (current : Current line stale s) (l : L) :
    Current line stale (evict line s l) := by
  intro w fresh clean
  by_cases here : line w = l
  · simp [WriteBack.evict, here] at clean
  · simp only [WriteBack.evict, here, false_and, ↓reduceIte]
    exact current w fresh (by simpa [WriteBack.evict, here] using clean)

theorem Current.prefetch [DecidableEq L] (current : Current line stale s) (l : L) :
    Current line stale (prefetch line s l) := by
  unfold WriteBack.prefetch
  split
  case isFalse => exact current
  intro w fresh clean
  by_cases here : line w = l
  · simp [here]
  · simp only [here, ↓reduceIte]
    exact current w fresh (by simpa [here] using clean)

theorem Current.cachedWrite [DecidableEq W] [DecidableEq L] (current : Current line stale s) (w : W)
    (v : V) : Current line stale (cachedWrite line s w v) := by
  intro w' fresh clean
  have elsewhere : line w' ≠ line w := by
    intro here
    simp [WriteBack.cachedWrite, here] at clean
  have other : w' ≠ w := fun same => elsewhere (by rw [same])
  have kept := current w' fresh (by simpa [WriteBack.cachedWrite, elsewhere] using clean)
  by_cases absent : s.tag (line w) = .absent <;>
    simpa [WriteBack.cachedWrite, WriteBack.prefetch, absent, elsewhere, other] using kept

theorem Current.flush (current : Current line stale s) (selected : L → Bool) :
    Current line stale (flush line s selected) := by
  intro w fresh clean
  by_cases written : selected (line w) = true ∧ s.tag (line w) = .dirty
  · simp [WriteBack.flush, written]
  · simp only [WriteBack.flush, written, ↓reduceIte] at clean ⊢
    exact current w fresh clean

/-- What is dropped is not stale any more. -/
theorem Current.inval (current : Current line stale s) (selected : L → Bool) :
    Current line (fun l => stale l ∧ selected l = false) (inval s selected) := by
  intro w fresh clean
  cases chosen : selected (line w) with
  | true => simp [WriteBack.inval, chosen] at clean
  | false =>
      exact current w (fun isStale => fresh ⟨isStale, chosen⟩)
        (by simpa [WriteBack.inval, chosen] using clean)

theorem Current.memWrite [DecidableEq W] (current : Current line stale s) (w : W) (v : V)
    (given : stale (line w)) : Current line stale (memWrite s w v) := by
  intro w' fresh clean
  have other : w' ≠ w := fun same => fresh (same ▸ given)
  simpa [WriteBack.memWrite, other] using current w' fresh clean

/-- A line is cached clean, and the memory behind it is different. -/
def Outdated (line : W → L) (s : State W L V) (l : L) : Prop :=
  s.tag l = .clean ∧ ∃ w, line w = l ∧ s.cached w ≠ s.mem w

theorem current_iff_outdated :
    Current line stale s ↔ ∀ l, Outdated line s l → stale l := by
  constructor
  · rintro current _ ⟨clean, w, rfl, differ⟩
    by_contra fresh
    exact differ (current w fresh clean)
  · intro only w fresh clean
    by_contra differ
    exact fresh (only _ ⟨clean, w, rfl, differ⟩)

/-- Writing back what is dirty brings no line up to date. -/
theorem Outdated.flush {l : L} (outdated : Outdated line s l) (selected : L → Bool) :
    Outdated line (flush line s selected) l := by
  obtain ⟨clean, w, rfl, differ⟩ := outdated
  exact ⟨by simp [WriteBack.flush, clean], w, rfl, by simpa [WriteBack.flush, clean] using differ⟩

theorem Outdated.inval {l : L} (outdated : Outdated line s l) {selected : L → Bool}
    (kept : selected l = false) : Outdated line (inval s selected) l := by
  obtain ⟨clean, w, rfl, differ⟩ := outdated
  exact ⟨by simp [WriteBack.inval, kept, clean], w, rfl, differ⟩

theorem Outdated.memWrite [DecidableEq W] {l : L} (outdated : Outdated line s l) {w : W} (v : V)
    (elsewhere : line w ≠ l) : Outdated line (memWrite s w v) l := by
  obtain ⟨clean, w', rfl, differ⟩ := outdated
  have other : w' ≠ w := fun same => elsewhere (same ▸ rfl)
  exact ⟨clean, w', rfl, by simpa [WriteBack.memWrite, other] using differ⟩

/-- A line that comes in right before the other party writes to it. -/
theorem outdated_memWrite [DecidableEq W] [DecidableEq L] (s : State W L V) (w : W) {v : V}
    (differ : (prefetch line (evict line s (line w)) (line w)).cached w ≠ v) :
    Outdated line (memWrite (prefetch line (evict line s (line w)) (line w)) w v) (line w) := by
  have absent : (WriteBack.evict line s (line w)).tag (line w) = .absent := by
    simp [WriteBack.evict]
  refine ⟨?_, w, rfl, ?_⟩
  · simp [WriteBack.memWrite, WriteBack.prefetch, absent]
  · simpa [WriteBack.memWrite] using differ

/-- A read, with the value read, or a write. -/
inductive Access (W V : Type)
  | read (w : W) (v : V)
  | write (w : W) (v : V)

/-- What the accesses, latest first, left in every word. -/
def lastWrite [DecidableEq W] (init : W → V) : List (Access W V) → W → V
  | [] => init
  | .read _ _ :: earlier => lastWrite init earlier
  | .write w v :: earlier => Function.update (lastWrite init earlier) w v

/-- Every read returned the last value written before it. -/
def ReadsLast [DecidableEq W] (init : W → V) : List (Access W V) → Prop
  | [] => True
  | .read w v :: earlier => v = lastWrite init earlier w ∧ ReadsLast init earlier
  | .write _ _ :: earlier => ReadsLast init earlier

end WriteBack
