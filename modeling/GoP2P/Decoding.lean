import GoP2P.Bytes

/-!
# Formats and the decoders that implement them

A format says which byte strings spell which value, and what a reader asks of
the runtime on an arbitrary input: memory for a declared count of elements, or
the stack for one more level of nesting.  `Decodes` relates a decoder to a
format: the decoder always comes back, it accepts exactly the inputs which begin
with a text of the format, it makes exactly the requests of the format, it
copies no more than is left, and the iterations of its loops are paid for by the
bytes it consumes.  All this is about a runtime that grants every request;
`Runtime.run` is the call on one that does not.

The rules below follow the statements of an offset-driven decoder.  Each one
moves the format across one statement, so that a decoder is verified by walking
through its body once.
-/

namespace GoP2P

/-- What is asked of the runtime: a slice of elements of one size, a map with a
size hint, the stack for a level of nesting.  `remaining` is how many bytes of
the input are left where the count was read. -/
inductive Request where
  | slice (size count remaining : ℕ)
  | map (count remaining : ℕ)
  | nesting (level : ℕ)
  deriving DecidableEq, Repr

/-- The ghost events of a decoder: a request, a copy of input bytes with the
number of bytes left, the start of a loop iteration. -/
inductive DecodeEvent where
  | request (request : Request)
  | copy (length remaining : ℕ)
  | iteration
  deriving DecidableEq, Repr

structure Format (α : Type) where
  texts : Bytes → α → Prop
  asks : Bytes → Request → Prop

namespace Format

variable {α β : Type}

def nothing (value : α) : Format α where
  texts bytes spelled := bytes = [] ∧ spelled = value
  asks _ _ := False

def byte : Format UInt8 where
  texts bytes value := bytes = [value]
  asks _ _ := False

def block (length : ℕ) : Format Bytes where
  texts bytes value := bytes = value ∧ value.length = length
  asks _ _ := False

def andThen (first : Format β) (next : β → Format α) : Format α where
  texts bytes value :=
    ∃ x part rest, bytes = part ++ rest ∧ first.texts part x ∧
      (next x).texts rest value
  asks bytes request :=
    first.asks bytes request ∨
      ∃ x part rest, bytes = part ++ rest ∧ first.texts part x ∧
        (next x).asks rest request

/-- The request may depend on the number of bytes that are left. -/
def asking (request : ℕ → Request) (format : Format α) : Format α where
  texts := format.texts
  asks bytes asked := asked = request bytes.length ∨ format.asks bytes asked

theorem andThen_nothing_texts
    {first : Format β} {f : β → α} {bytes : Bytes} {value : α} :
    (first.andThen fun x => nothing (f x)).texts bytes value ↔
      ∃ x, first.texts bytes x ∧ value = f x := by
  constructor
  · rintro ⟨x, part, rest, rfl, htext, rfl, rfl⟩
    exact ⟨x, by simpa using htext, rfl⟩
  · rintro ⟨x, htext, rfl⟩
    exact ⟨x, bytes, [], by simp, htext, rfl, rfl⟩

theorem andThen_nothing_asks
    {first : Format β} {f : β → α} {bytes : Bytes} {request : Request} :
    (first.andThen fun x => nothing (f x)).asks bytes request ↔
      first.asks bytes request := by
  simp [andThen, nothing]

end Format

variable {ε α β : Type}

structure Decodes (rest : Bytes) (off lead : ℕ) (format : Format α)
    (call : Traced DecodeEvent ε (α × ℕ)) : Prop where
  ends : call.outcome.Ends
  returned_iff : ∀ value stop,
    call.outcome = .returned (value, stop) ↔
      ∃ part tail, rest = part ++ tail ∧ format.texts part value ∧
        stop = off + part.length
  copies : ∀ length remaining,
    .copy length remaining ∈ call.events → length ≤ remaining
  asks : ∀ request,
    .request request ∈ call.events ↔ format.asks rest request
  iterations : ∀ value stop,
    call.outcome = .returned (value, stop) →
      off + lead + call.events.count .iteration ≤ stop

def StandsAt (buf : Bytes) (off : ℕ) (rest : Bytes) : Prop :=
  off ≤ buf.length ∧ buf.drop off = rest

namespace StandsAt

variable {buf rest part : Bytes} {off : ℕ}

theorem zero (buf : Bytes) : StandsAt buf 0 buf := by
  simp [StandsAt]

theorem advance (hat : StandsAt buf off (part ++ rest)) :
    StandsAt buf (off + part.length) rest := by
  obtain ⟨hoff, hdrop⟩ := hat
  have hlength := congrArg List.length hdrop
  simp only [List.length_drop, List.length_append] at hlength
  constructor
  · omega
  · rw [← List.drop_drop, hdrop, List.drop_left]

theorem length_eq (hat : StandsAt buf off rest) :
    buf.length = off + rest.length := by
  obtain ⟨hoff, rfl⟩ := hat
  rw [List.length_drop]
  omega

theorem slice_eq (hat : StandsAt buf off rest) :
    (slice buf off buf.length : Outcome ε Bytes) = .returned rest := by
  obtain ⟨hoff, rfl⟩ := hat
  rw [slice, if_pos ⟨hoff, le_rfl⟩, List.take_of_length_le (by simp)]

end StandsAt

namespace Decodes

variable {rest : Bytes} {off lead : ℕ} {format : Format α}
  {call : Traced DecodeEvent ε (α × ℕ)}

theorem congr {format' : Format α}
    (htexts : ∀ bytes value, format.texts bytes value ↔
      format'.texts bytes value)
    (hasks : ∀ request, format.asks rest request ↔ format'.asks rest request)
    (hcall : Decodes rest off lead format call) :
    Decodes rest off lead format' call where
  ends := hcall.ends
  returned_iff value stop := by simp only [hcall.returned_iff, htexts]
  copies := hcall.copies
  asks request := by rw [hcall.asks, hasks]
  iterations := hcall.iterations

theorem of_lead_le {lead' : ℕ} (hlead : lead' ≤ lead)
    (hcall : Decodes rest off lead format call) :
    Decodes rest off lead' format call where
  ends := hcall.ends
  returned_iff := hcall.returned_iff
  copies := hcall.copies
  asks := hcall.asks
  iterations value stop hreturned := by
    have hpaid := hcall.iterations value stop hreturned
    omega

theorem mapError (wrap : ε → ε) (hcall : Decodes rest off lead format call) :
    Decodes rest off lead format (call.mapError wrap) where
  ends := by simpa using hcall.ends
  returned_iff value stop := by simpa using hcall.returned_iff value stop
  copies := hcall.copies
  asks := hcall.asks
  iterations value stop := by simpa using hcall.iterations value stop

theorem pure (rest : Bytes) (off : ℕ) (value : α) :
    Decodes rest off 0 (.nothing value)
      (Pure.pure (value, off) : Traced DecodeEvent ε (α × ℕ)) where
  ends := by simp
  returned_iff spelled stop := by
    simp only [Traced.pure_outcome, Outcome.returned.injEq, Prod.mk.injEq,
      Format.nothing]
    constructor
    · rintro ⟨rfl, rfl⟩
      exact ⟨[], rest, rfl, ⟨rfl, rfl⟩, rfl⟩
    · rintro ⟨part, tail, -, ⟨rfl, rfl⟩, rfl⟩
      exact ⟨rfl, rfl⟩
  copies := by simp
  asks := by simp [Format.nothing]
  iterations := by simp

theorem fail (error : ε)
    (htexts : ∀ part tail value, rest = part ++ tail →
      ¬ format.texts part value)
    (hasks : ∀ request, ¬ format.asks rest request) :
    Decodes rest off lead format
      (Traced.fail error : Traced DecodeEvent ε (α × ℕ)) where
  ends := by simp
  returned_iff value stop := by
    simp only [Traced.fail_outcome, reduceCtorEq, false_iff]
    rintro ⟨part, tail, hrest, htext, -⟩
    exact htexts part tail value hrest htext
  copies := by simp
  asks := by simpa using hasks
  iterations := by simp

/-! ## Events -/

/-- An event before the rest of the decoder.  An iteration is paid for by the
rest. -/
theorem emit {event : DecodeEvent} {format' : Format α} {lead' : ℕ}
    {next : PUnit → Traced DecodeEvent ε (α × ℕ)}
    (hnext : Decodes rest off lead' format (next ⟨⟩))
    (hlead : lead + [event].count .iteration ≤ lead')
    (hcopy : ∀ length remaining, event = .copy length remaining →
      length ≤ remaining)
    (htexts : format'.texts = format.texts)
    (hasks : ∀ request, format'.asks rest request ↔
      event = .request request ∨ format.asks rest request) :
    Decodes rest off lead format' (Traced.emit event >>= next) := by
  rw [Traced.bind_of_returned rfl next]
  refine ⟨hnext.ends, htexts ▸ hnext.returned_iff, ?_, ?_, ?_⟩
  · intro length remaining hmem
    rcases List.mem_cons.mp hmem with hfirst | hlater
    · exact hcopy length remaining hfirst.symm
    · exact hnext.copies length remaining hlater
  · intro request
    rw [hasks, ← hnext.asks, eq_comm]
    exact List.mem_cons
  · intro value stop hreturned
    have hpaid := hnext.iterations value stop hreturned
    rw [List.count_append]
    change _ + ([event].count .iteration + _) ≤ _
    omega

theorem emit_iteration
    {next : PUnit → Traced DecodeEvent ε (α × ℕ)}
    (hnext : Decodes rest off (lead + 1) format (next ⟨⟩)) :
    Decodes rest off lead format (Traced.emit .iteration >>= next) :=
  hnext.emit le_rfl (by simp) rfl (by simp)

theorem emit_copy {length remaining : ℕ} (hfits : length ≤ remaining)
    {next : PUnit → Traced DecodeEvent ε (α × ℕ)}
    (hnext : Decodes rest off lead format (next ⟨⟩)) :
    Decodes rest off lead format
      (Traced.emit (.copy length remaining) >>= next) := by
  apply hnext.emit le_rfl _ rfl (by simp)
  rintro _ _ ⟨⟩
  exact hfits

theorem emit_request {request : ℕ → Request} (remaining : ℕ)
    (hleft : request remaining = request rest.length)
    {next : PUnit → Traced DecodeEvent ε (α × ℕ)}
    (hnext : Decodes rest off lead format (next ⟨⟩)) :
    Decodes rest off lead (format.asking request)
      (Traced.emit (.request (request remaining)) >>= next) := by
  refine hnext.emit le_rfl (by simp) rfl ?_
  intro asked
  rw [DecodeEvent.request.injEq, hleft, eq_comm]
  rfl

/-! ## Sequences -/

/-- A call followed by the rest of the decoder.  The call may count its
position from its own `base`, as a nested decoder does. -/
theorem andThen
    {base lead' : ℕ} {first : Format β} {next : β → Format α}
    {head : Traced DecodeEvent ε (β × ℕ)}
    {body : β × ℕ → Traced DecodeEvent ε (α × ℕ)}
    (hhead : Decodes rest base lead first head)
    (hbody : ∀ x part tail, rest = part ++ tail → first.texts part x →
      Decodes tail (off + part.length) lead' (next x)
        (body (x, base + part.length))) :
    Decodes rest off (lead + lead') (first.andThen next) (head >>= body) := by
  refine ⟨?_, ?_, ?_, ?_, ?_⟩
  · rw [Traced.bind_outcome]
    apply Outcome.ends_bind hhead.ends
    rintro ⟨x, stop⟩ hreturned
    obtain ⟨part, tail, hrest, htext, rfl⟩ :=
      (hhead.returned_iff x stop).mp hreturned
    exact (hbody x part tail hrest htext).ends
  · intro value stop
    rw [Traced.bind_outcome, Outcome.bind_eq_returned_iff]
    constructor
    · rintro ⟨⟨x, middle⟩, hreturned, hlast⟩
      obtain ⟨part, tail, rfl, htext, rfl⟩ :=
        (hhead.returned_iff x middle).mp hreturned
      obtain ⟨part', tail', rfl, htext', rfl⟩ :=
        ((hbody x part tail rfl htext).returned_iff value stop).mp hlast
      refine ⟨part ++ part', tail', by simp, ?_, by simp; omega⟩
      exact ⟨x, part, part', rfl, htext, htext'⟩
    · rintro ⟨_, tail, hrest, ⟨x, part, part', rfl, htext, htext'⟩, rfl⟩
      rw [List.append_assoc] at hrest
      have hsecond := hbody x part (part' ++ tail) hrest htext
      refine ⟨(x, base + part.length),
        (hhead.returned_iff x _).mpr ⟨part, _, hrest, htext, rfl⟩,
        (hsecond.returned_iff value _).mpr ⟨part', tail, rfl, htext', ?_⟩⟩
      rw [List.length_append]
      omega
  · intro length remaining hcopy
    rcases Traced.mem_events_bind_iff.mp hcopy with
      hfirst | ⟨⟨x, middle⟩, hreturned, hlater⟩
    · exact hhead.copies length remaining hfirst
    · obtain ⟨part, tail, hrest, htext, rfl⟩ :=
        (hhead.returned_iff x middle).mp hreturned
      exact (hbody x part tail hrest htext).copies length remaining hlater
  · intro request
    rw [Traced.mem_events_bind_iff, hhead.asks]
    constructor
    · rintro (hfirst | ⟨⟨x, middle⟩, hreturned, hlater⟩)
      · exact .inl hfirst
      · obtain ⟨part, tail, hrest, htext, rfl⟩ :=
          (hhead.returned_iff x middle).mp hreturned
        exact .inr ⟨x, part, tail, hrest, htext,
          ((hbody x part tail hrest htext).asks request).mp hlater⟩
    · rintro (hfirst | ⟨x, part, tail, hrest, htext, hlater⟩)
      · exact .inl hfirst
      · refine .inr ⟨(x, base + part.length),
          (hhead.returned_iff x _).mpr ⟨part, tail, hrest, htext, rfl⟩, ?_⟩
        exact ((hbody x part tail hrest htext).asks request).mpr hlater
  · intro value stop hreturned
    rw [Traced.bind_outcome, Outcome.bind_eq_returned_iff] at hreturned
    obtain ⟨⟨x, middle⟩, hfirst, hlast⟩ := hreturned
    have hpaid := hhead.iterations x middle hfirst
    obtain ⟨part, tail, hrest, htext, rfl⟩ :=
      (hhead.returned_iff x middle).mp hfirst
    have hpaid' := (hbody x part tail hrest htext).iterations value stop hlast
    rw [Traced.bind_of_returned hfirst, List.count_append]
    omega

theorem exact
    {part tail : Bytes} {value : α}
    (hrest : rest = part ++ tail) (htext : format.texts part value)
    (hunique : ∀ value' part' tail', rest = part' ++ tail' →
      format.texts part' value' → value' = value ∧ part' = part)
    (hsilent : ∀ request, ¬ format.asks rest request) :
    Decodes rest off part.length format
      (Pure.pure (value, off + part.length) :
        Traced DecodeEvent ε (α × ℕ)) := by
  refine ⟨by simp, ?_, by simp, ?_, ?_⟩
  · intro value' stop
    simp only [Traced.pure_outcome, Outcome.returned.injEq, Prod.mk.injEq]
    constructor
    · rintro ⟨rfl, rfl⟩
      exact ⟨part, tail, hrest, htext, rfl⟩
    · rintro ⟨part', tail', hrest', htext', rfl⟩
      obtain ⟨rfl, rfl⟩ := hunique value' part' tail' hrest' htext'
      exact ⟨rfl, rfl⟩
  · simpa using hsilent
  · rintro value' stop ⟨⟩
    simp

theorem past
    {first : Format β} {next : β → Format α} {x : β} {part tail : Bytes}
    (hrest : rest = part ++ tail) (htext : first.texts part x)
    (hunique : ∀ x' part' tail', rest = part' ++ tail' →
      first.texts part' x' → x' = x ∧ part' = part)
    (hsilent : ∀ request, ¬ first.asks rest request)
    (hcall : Decodes tail (off + part.length) lead (next x) call) :
    Decodes rest off (part.length + lead) (first.andThen next) call := by
  have hbind : Decodes rest off (part.length + lead) (first.andThen next)
      ((Pure.pure (x, off + part.length) : Traced DecodeEvent ε (β × ℕ)) >>=
        fun _ => call) := by
    apply (exact hrest htext hunique hsilent).andThen
    intro x' part' tail' hrest' htext'
    obtain ⟨rfl, rfl⟩ := hunique x' part' tail' hrest' htext'
    obtain rfl : tail' = tail := List.append_cancel_left (hrest' ▸ hrest)
    exact hcall
  simpa using hbind

/-! ## The reads of an offset-driven decoder -/

variable {buf : Bytes}

/-- `if off >= len(buf) { fail }; x := buf[off]`. -/
theorem read_byte
    (hat : StandsAt buf off rest) (error : ε) {next : UInt8 → Format α}
    {body : UInt8 → Traced DecodeEvent ε (α × ℕ)}
    (hbody : ∀ byte tail, rest = byte :: tail → StandsAt buf (off + 1) tail →
      Decodes tail (off + 1) lead (next byte) (body byte)) :
    Decodes rest off (1 + lead) (Format.byte.andThen next)
      (do Traced.failIf (off ≥ buf.length) error
          let byte ← Traced.lift (index buf off)
          body byte) := by
  have hlength := hat.length_eq
  cases rest with
  | nil =>
      have hshort : off ≥ buf.length := by simp [hlength]
      rw [Traced.failIf, if_pos hshort, Traced.fail_bind]
      refine fail error ?_ ?_
      · rintro part tail value hnil ⟨byte, head, last, rfl, rfl, -⟩
        simp at hnil
      · rintro request (hnone | ⟨byte, part, tail, hnil, rfl, -⟩)
        · exact hnone
        · simp at hnil
  | cons byte tail =>
      have hlong : ¬ off ≥ buf.length := by simp [hlength]
      have hindex : (Traced.lift (index buf off) :
          Traced DecodeEvent ε UInt8) = Pure.pure byte := by
        rw [index_of_drop_eq hat.2]
        rfl
      rw [Traced.failIf, if_neg hlong, Traced.pure_bind, hindex,
        Traced.pure_bind]
      have hsplit : StandsAt buf off ([byte] ++ tail) := hat
      have htext : Format.byte.texts [byte] byte := rfl
      refine past (List.singleton_append).symm htext ?_ ?_
        (hbody byte tail rfl hsplit.advance)
      · rintro byte' part' tail' hrest rfl
        obtain ⟨rfl, -⟩ := List.cons.inj hrest
        exact ⟨rfl, rfl⟩
      · exact fun _ hnone => hnone

theorem guard {condition : Prop} [Decidable condition] (error : ε)
    (htexts : condition → ∀ part tail value, rest = part ++ tail →
      ¬ format.texts part value)
    (hasks : condition → ∀ request, ¬ format.asks rest request)
    {next : PUnit → Traced DecodeEvent ε (α × ℕ)}
    (hnext : ¬ condition → Decodes rest off lead format (next ⟨⟩)) :
    Decodes rest off lead format (Traced.failIf condition error >>= next) := by
  unfold Traced.failIf
  split_ifs with hcondition
  · rw [Traced.fail_bind]
    exact fail error (htexts hcondition) (hasks hcondition)
  · rw [Traced.pure_bind]
    exact hnext hcondition

theorem guard_block {condition : Prop} [Decidable condition] {width : ℕ}
    (hcondition : condition ↔ rest.length < width) (error : ε)
    {body : Bytes → Format α} {next : PUnit → Traced DecodeEvent ε (α × ℕ)}
    (hnext : width ≤ rest.length →
      Decodes rest off lead ((Format.block width).andThen body) (next ⟨⟩)) :
    Decodes rest off lead ((Format.block width).andThen body)
      (Traced.failIf condition error >>= next) := by
  apply guard error
  · rintro hshort part tail value rfl ⟨bytes, head, last, rfl, ⟨rfl, hwidth⟩, -⟩
    simp only [hcondition, List.length_append] at hshort
    omega
  · rintro hshort request
      (hnone | ⟨bytes, part, tail, rfl, ⟨rfl, hwidth⟩, -⟩)
    · exact hnone
    · simp only [hcondition, List.length_append] at hshort
      omega
  · intro hlong
    exact hnext (Nat.le_of_not_lt (mt hcondition.mpr hlong))

theorem read_slice
    (hat : StandsAt buf off rest) {width : ℕ} (hwidth : width ≤ rest.length)
    {next : Bytes → Format α}
    {body : Bytes → Traced DecodeEvent ε (α × ℕ)}
    (hbody : ∀ part tail, rest = part ++ tail → part.length = width →
      StandsAt buf (off + width) tail →
      Decodes tail (off + width) lead (next part) (body part)) :
    Decodes rest off (width + lead) ((Format.block width).andThen next)
      (Traced.lift (slice buf off (off + width)) >>= body) := by
  obtain ⟨part, tail, rfl, rfl⟩ : ∃ part tail, rest = part ++ tail ∧
      part.length = width :=
    ⟨rest.take width, rest.drop width, by simp, by simpa using hwidth⟩
  have hslice : (Traced.lift (slice buf off (off + part.length)) :
      Traced DecodeEvent ε Bytes) = Pure.pure part := by
    rw [slice_of_drop_eq hat.1 hat.2]
    rfl
  rw [hslice, Traced.pure_bind]
  have htext : (Format.block part.length).texts part part := ⟨rfl, rfl⟩
  refine past rfl htext ?_ ?_ (hbody part tail rfl rfl hat.advance)
  · rintro bytes part' tail' hrest ⟨rfl, hlength⟩
    obtain ⟨rfl, -⟩ := List.append_inj hrest hlength.symm
    exact ⟨rfl, rfl⟩
  · exact fun _ hnone => hnone

theorem read_nested
    (hat : StandsAt buf off rest) {lead' : ℕ}
    {first : Format β} {next : β → Format α}
    {head : Bytes → Traced DecodeEvent ε (β × ℕ)}
    {body : β × ℕ → Traced DecodeEvent ε (α × ℕ)}
    (hhead : Decodes rest 0 lead first (head rest))
    (hbody : ∀ x part tail, rest = part ++ tail → first.texts part x →
      StandsAt buf (off + part.length) tail →
      Decodes tail (off + part.length) lead' (next x)
        (body (x, part.length))) :
    Decodes rest off (lead + lead') (first.andThen next)
      (do let sub ← Traced.lift (slice buf off buf.length)
          let result ← head sub
          body result) := by
  have hslice : (Traced.lift (slice buf off buf.length) :
      Traced DecodeEvent ε Bytes) = Pure.pure rest := by
    rw [hat.slice_eq]
    rfl
  rw [hslice, Traced.pure_bind]
  apply hhead.andThen
  intro x part tail hrest htext
  rw [Nat.zero_add]
  subst hrest
  exact hbody x part tail rfl htext hat.advance

end Decodes

/-! ## Counted loops -/

theorem exists_map_eq {f : α → β} {p : α → Prop} {items : List β}
    (hitems : ∀ item ∈ items, ∃ x, p x ∧ f x = item) :
    ∃ xs : List α, xs.map f = items ∧ ∀ x ∈ xs, p x := by
  induction items with
  | nil => exact ⟨[], rfl, by simp⟩
  | cons item items ih =>
      obtain ⟨x, hx, rfl⟩ := hitems item (by simp)
      obtain ⟨xs, rfl, hxs⟩ := ih fun other hother =>
        hitems other (by simp [hother])
      exact ⟨x :: xs, rfl, by simpa [hx] using hxs⟩

/-- `for range count`, where the body reads one element at the offset and adds
it to what was read so far. -/
def decodeLoop {γ : Type} (step : ℕ → Traced DecodeEvent ε (β × ℕ))
    (insert : γ → β → γ) : ℕ → ℕ → γ → Traced DecodeEvent ε (γ × ℕ)
  | 0, off, acc => pure (acc, off)
  | count + 1, off, acc => do
      Traced.emit .iteration
      let (x, off) ← step off
      decodeLoop step insert count off (insert acc x)

namespace Format

variable {γ : Type} (element : Format β) (insert : γ → β → γ)

/-- `count` elements one after another.  A request is made by the first
element that is not complete, or by one before it. -/
def repeated (count : ℕ) (acc : γ) : Format γ where
  texts bytes value :=
    ∃ items : List (Bytes × β), items.length = count ∧
      (∀ item ∈ items, element.texts item.1 item.2) ∧
      bytes = items.flatMap Prod.fst ∧
      value = (items.map Prod.snd).foldl insert acc
  asks bytes request :=
    ∃ (items : List (Bytes × β)) (tail : Bytes), items.length < count ∧
      (∀ item ∈ items, element.texts item.1 item.2) ∧
      bytes = items.flatMap Prod.fst ++ tail ∧
      element.asks tail request

variable {element insert}

theorem repeated_zero_texts {acc value : γ} {bytes : Bytes} :
    (element.repeated insert 0 acc).texts bytes value ↔
      (nothing acc).texts bytes value := by
  constructor
  · rintro ⟨items, hcount, -, rfl, rfl⟩
    obtain rfl := List.length_eq_zero_iff.mp hcount
    exact ⟨rfl, rfl⟩
  · rintro ⟨rfl, rfl⟩
    exact ⟨[], rfl, by simp, rfl, rfl⟩

theorem repeated_succ_texts {count : ℕ} {acc value : γ} {bytes : Bytes} :
    (element.repeated insert (count + 1) acc).texts bytes value ↔
      (element.andThen fun x =>
        element.repeated insert count (insert acc x)).texts bytes value := by
  constructor
  · rintro ⟨items, hcount, hitems, rfl, rfl⟩
    obtain ⟨item, items, rfl⟩ := List.exists_cons_of_length_eq_add_one hcount
    refine ⟨item.2, item.1, items.flatMap Prod.fst, rfl,
      hitems item (by simp), items, by simpa using hcount, ?_, rfl, rfl⟩
    exact fun other hother => hitems other (by simp [hother])
  · rintro ⟨x, part, _, rfl, hpart, items, rfl, hitems, rfl, rfl⟩
    refine ⟨(part, x) :: items, rfl, ?_, rfl, rfl⟩
    simpa [hpart] using hitems

theorem repeated_succ_asks
    {count : ℕ} {acc : γ} {bytes : Bytes} {request : Request} :
    (element.repeated insert (count + 1) acc).asks bytes request ↔
      (element.andThen fun x =>
        element.repeated insert count (insert acc x)).asks bytes request := by
  constructor
  · rintro ⟨items, tail, hcount, hitems, rfl, hasks⟩
    cases items with
    | nil => exact .inl hasks
    | cons item items =>
        refine .inr ⟨item.2, item.1, items.flatMap Prod.fst ++ tail, by simp,
          hitems item (by simp), items, tail, by simpa using hcount, ?_, rfl,
          hasks⟩
        exact fun other hother => hitems other (by simp [hother])
  · rintro (hasks | ⟨x, part, _, rfl, hpart, items, tail, hcount, hitems,
      rfl, hasks⟩)
    · exact ⟨[], bytes, by simp, by simp, rfl, hasks⟩
    · refine ⟨(part, x) :: items, tail, by simpa using hcount, ?_, by simp,
        hasks⟩
      simpa [hpart] using hitems

end Format

/-- A loop whose body reads one element of a format, at the price of at least
one byte an iteration, reads the repetition of the format. -/
theorem Decodes.loop {γ : Type} {buf : Bytes} {element : Format β}
    {step : ℕ → Traced DecodeEvent ε (β × ℕ)} {insert : γ → β → γ}
    (hstep : ∀ off rest, StandsAt buf off rest →
      Decodes rest off 1 element (step off))
    (count : ℕ) {off : ℕ} {rest : Bytes} (hat : StandsAt buf off rest)
    (acc : γ) :
    Decodes rest off 0 (element.repeated insert count acc)
      (decodeLoop step insert count off acc) := by
  induction count generalizing off rest acc with
  | zero =>
      refine (Decodes.pure rest off acc).congr
        (fun _ _ => Format.repeated_zero_texts.symm) ?_
      intro request
      simp [Format.nothing, Format.repeated]
  | succ count ih =>
      have hbody : Decodes rest off (1 + 0)
          (element.andThen fun x =>
            element.repeated insert count (insert acc x))
          (step off >>= fun result =>
            decodeLoop step insert count result.2 (insert acc result.1)) := by
        apply (hstep off rest hat).andThen
        intro x part tail hrest htext
        subst hrest
        exact ih hat.advance (insert acc x)
      exact (emit_iteration hbody).congr
        (fun _ _ => Format.repeated_succ_texts.symm)
        (fun _ => Format.repeated_succ_asks.symm)

/-! ## A runtime with limits -/

/-- `make` panics on a slice of more than `maxAlloc` bytes, and more than
`maxNesting` levels of calls overflow the stack, which no `recover` catches.
A map hint is never too large: the runtime drops one it cannot serve. -/
structure Runtime where
  maxAlloc : ℕ
  maxNesting : ℕ

namespace Runtime

variable (runtime : Runtime)

def refuses : DecodeEvent → Bool
  | .request (.slice size count _) => runtime.maxAlloc < size * count
  | .request (.nesting level) => runtime.maxNesting < level
  | _ => false

/-- The call as it ends on the runtime: a refused request is its last. -/
def run (call : Traced DecodeEvent ε α) : Outcome ε α :=
  if call.events.any runtime.refuses then .panicked else call.outcome

variable {runtime}

end Runtime

end GoP2P
