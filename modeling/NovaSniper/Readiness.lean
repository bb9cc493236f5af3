import NovaSniper.Startup
import NovaSniper.Targets

/-!
What the start needs of a configuration.

Every text that the start reads is read completely: a key file that is not a keypair, a target
that is not spelled out, a pattern that does not compile or a key in a list that does not parse
keeps the program from starting. The tip accounts are not among these texts. Of the numbers that
validation does not look at, the number of permits has a bound all the same.
-/

namespace NovaSniper.Readiness

open NovaSniper.FloatOps NovaSniper.Config NovaSniper.Solana NovaSniper.Detector
open NovaSniper.Filters NovaSniper.Wallet NovaSniper.Executor NovaSniper.Startup
open NovaSniper.Targets NovaSniper.Lib.Fallible

variable {F K : Type} [F64 F]

/-! ### What is asked of the texts -/

/-- The file is the JSON of the 64 bytes of a keypair. -/
def HoldsKeypair (files : Files K) (path : String) : Prop :=
  ∃ text bytes wallet, files.readToString path = .ok text ∧ files.parseBytes text = .ok bytes ∧
    bytes.length = 64 ∧ files.fromBytes bytes = .ok wallet

/-- A target that is enabled has a program, and spells a discriminator. -/
def Aimed (ext : Codecs) (enabled : Bool) (programId discriminator : String) : Prop :=
  enabled = true → (∃ p, ext.parsePubkey programId = .ok p) ∧ ∃ δ, Spells discriminator δ

/-- What a configuration must be, where it stands, for the program to start. -/
structure Ready (host : Host K) (cfg : Config F) : Prop where
  inRange : ¬ OutOfRange cfg
  keypairs : ∀ path ∈ cfg.wallets.keypairPaths, HoldsKeypair host.files path
  pumpfun : Aimed host.crates.codecs cfg.targets.pumpfun.enabled cfg.targets.pumpfun.programId
    cfg.targets.pumpfun.createDiscriminator
  raydium : Aimed host.crates.codecs cfg.targets.raydiumLaunchlab.enabled
    cfg.targets.raydiumLaunchlab.programId cfg.targets.raydiumLaunchlab.initializeDiscriminator
  patterns : ∀ pattern ∈ cfg.filters.nameAllowRegex ++ cfg.filters.nameDenyRegex ++
    cfg.filters.symbolAllowRegex, ∃ re, host.compile pattern = .ok re
  devs : ∀ text ∈ cfg.filters.devAllowlist ++ cfg.filters.devBlocklist,
    ∃ p, host.crates.codecs.parsePubkey text = .ok p
  node : host.rpcClient = .ok ()
  client : host.httpClient = .ok ()
  permits : cfg.runtime.maxConcurrentSnipes ≤ maxPermits

variable {host : Host K} {path : String} {simulate : Bool} {cfg : Config F}

/-! ### The parts -/

lemma exists_keypair {files : Files K} :
    (∃ wallet, loadKeypair files path = .ok wallet) ↔ HoldsKeypair files path := by
  unfold loadKeypair HoldsKeypair
  simp only [bind_eq_ok, withContext_eq_ok]
  refine ⟨?_, ?_⟩
  · rintro ⟨wallet, text, htext, bytes, hbytes, hwallet⟩
    split_ifs at hwallet with hlen
    exact ⟨text, bytes, wallet, htext, hbytes, not_not.mp hlen, withContext_eq_ok.mp hwallet⟩
  · rintro ⟨text, bytes, wallet, htext, hbytes, hlen, hwallet⟩
    refine ⟨wallet, text, htext, bytes, hbytes, ?_⟩
    rw [if_neg (not_not.mpr hlen)]
    exact withContext_eq_ok.mpr hwallet

lemma exists_load {files : Files K} {cfg : WalletConfig} :
    (∃ pool, WalletPool.load files cfg = .ok pool) ↔
      ∀ path ∈ cfg.keypairPaths, HoldsKeypair files path := by
  have hload : (∃ pool, WalletPool.load files cfg = .ok pool) ↔
      ∃ wallets, cfg.keypairPaths.mapM (loadKeypair files) = .ok wallets := by
    unfold WalletPool.load
    simp only [bind_eq_ok]
    refine ⟨?_, ?_⟩
    · rintro ⟨pool, wallets, hwallets, -⟩
      exact ⟨wallets, hwallets⟩
    · rintro ⟨wallets, hwallets⟩
      exact ⟨_, wallets, hwallets, rfl⟩
  rw [hload, exists_mapM]
  simp only [exists_keypair]

lemma exists_matcher {ext : Codecs} (hhex : HexExact ext) (venue : Venue) {enabled : Bool}
    {programId discriminator : String} :
    (∃ m, matcherOf ext enabled programId discriminator venue = .ok m) ↔
      Aimed ext enabled programId discriminator := by
  simp only [matcherOf_eq_ok, parseDiscriminator_eq_ok hhex]
  unfold Aimed
  cases enabled with
  | false => simp
  | true =>
    simp only [Bool.true_eq_false, false_and, true_and, false_or, forall_const]
    refine ⟨?_, ?_⟩
    · rintro ⟨m, p, δ, hp, hδ, -⟩
      exact ⟨⟨p, hp⟩, δ, hδ⟩
    · rintro ⟨⟨p, hp⟩, δ, hδ⟩
      exact ⟨_, p, δ, hp, hδ, rfl⟩

lemma exists_detector {ext : Codecs} (hhex : HexExact ext) {targets : TargetsConfig} :
    (∃ d, Detector.new ext targets = .ok d) ↔
      Aimed ext targets.pumpfun.enabled targets.pumpfun.programId
          targets.pumpfun.createDiscriminator ∧
        Aimed ext targets.raydiumLaunchlab.enabled targets.raydiumLaunchlab.programId
          targets.raydiumLaunchlab.initializeDiscriminator := by
  rw [← exists_matcher hhex .pumpFun, ← exists_matcher hhex .raydiumLaunchLab]
  simp only [new_eq_ok]
  refine ⟨?_, ?_⟩
  · rintro ⟨d, hpumpfun, hraydium⟩
    exact ⟨⟨_, hpumpfun⟩, _, hraydium⟩
  · rintro ⟨⟨pumpfun, hpumpfun⟩, raydium, hraydium⟩
    exact ⟨⟨pumpfun, raydium⟩, hpumpfun, hraydium⟩

omit [F64 F] in
lemma exists_filters {compile : String → Except String Regex} {ext : Codecs}
    {cfg : FilterConfig F} :
    (∃ engine, FilterEngine.new compile ext cfg = .ok engine) ↔
      (∀ pattern ∈ cfg.nameAllowRegex ++ cfg.nameDenyRegex ++ cfg.symbolAllowRegex,
          ∃ re, compile pattern = .ok re) ∧
        ∀ text ∈ cfg.devAllowlist ++ cfg.devBlocklist, ∃ p, ext.parsePubkey text = .ok p := by
  simp only [List.forall_mem_append, ← exists_mapM]
  refine ⟨?_, ?_⟩
  · rintro ⟨engine, hnew⟩
    obtain ⟨-, hname, hdeny, hsymbol, hallow, hblock⟩ := lists_of_new hnew
    exact ⟨⟨⟨⟨_, hname⟩, _, hdeny⟩, _, hsymbol⟩, ⟨_, hallow⟩, _, hblock⟩
  · rintro ⟨⟨⟨⟨nameAllow, hname⟩, nameDeny, hdeny⟩, symbolAllow, hsymbol⟩, ⟨allowlist, hallow⟩,
      blocklist, hblock⟩
    refine ⟨⟨cfg, nameAllow, nameDeny, symbolAllow, allowlist, blocklist⟩, ?_⟩
    unfold FilterEngine.new
    refine bind_eq_ok.mpr ⟨_, hname, bind_eq_ok.mpr ⟨_, hdeny, bind_eq_ok.mpr ⟨_, hsymbol, ?_⟩⟩⟩
    exact bind_eq_ok.mpr ⟨_, hallow, bind_eq_ok.mpr ⟨_, hblock, rfl⟩⟩

/-! ### The start -/

/-- **The parts can be built exactly on a configuration that is ready**, simulated or not. -/
theorem exists_built (hhex : HexExact host.crates.codecs) :
    (∃ p, Built host simulate cfg p) ↔ Ready host cfg := by
  refine ⟨?_, ?_⟩
  · rintro ⟨p, h⟩
    obtain ⟨hpumpfun, hraydium⟩ := (exists_detector hhex).mp ⟨_, h.detector⟩
    obtain ⟨hpatterns, hdevs⟩ := exists_filters.mp ⟨_, h.filters⟩
    exact ⟨validate_eq_ok.mp h.valid, exists_load.mp ⟨_, h.wallets⟩, hpumpfun, hraydium, hpatterns,
      hdevs, h.node, h.client, (le_max_left _ _).trans h.countable⟩
  · intro h
    obtain ⟨wallets, hwallets⟩ := exists_load.mpr h.keypairs
    obtain ⟨detector, hdetector⟩ := (exists_detector hhex).mpr ⟨h.pumpfun, h.raydium⟩
    obtain ⟨filters, hfilters⟩ := exists_filters.mpr ⟨h.patterns, h.devs⟩
    exact ⟨⟨cfg.rpc, detector, filters, wallets, ⟨cfg.jito, cfg.sizing, modeOf simulate⟩,
      max cfg.runtime.maxConcurrentSnipes 1⟩, validate_eq_ok.mpr h.inRange, rfl, hwallets,
      hdetector, hfilters, h.node, h.client, rfl, max_le h.permits (by decide), rfl⟩

end NovaSniper.Readiness
