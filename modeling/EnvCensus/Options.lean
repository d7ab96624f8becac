/-! Options of one scan: which files are looked at, which providers look at them and which
prefixes make a variable public. -/
namespace EnvCensus

/-- Prefixes that bundlers expose to client code. -/
def defaultPublicPrefixes : List String :=
  ["NEXT_PUBLIC_", "VITE_", "REACT_APP_", "VUE_APP_", "NUXT_PUBLIC_", "PUBLIC_"]

/-- One mebibyte. -/
def defaultMaxFileSize : Int := 1024 * 1024

def defaultIncludePatterns : List String :=
  ["*.js", "*.jsx", "*.ts", "*.tsx", "*.mjs", "*.cjs", "*.vue", "*.svelte", "*.astro",
   "*.yml", "*.yaml", "*.sh", "*.bash", "*.zsh", "*.fish",
   "bashrc", ".bashrc", "bash_profile", ".bash_profile", "zshrc", ".zshrc", "zprofile",
   ".zprofile", "profile", ".profile", "bashrc.local", "zshrc.local",
   ".env", ".env.*", "*.env", "env", "environment", "package.json"]

def defaultExcludePatterns : List String :=
  ["node_modules/", ".git/", "dist/", "build/", ".next/", ".nuxt/", ".svelte-kit/",
   "coverage/", "*.d.ts"]

structure Options where
  publicPrefixes : List String := defaultPublicPrefixes
  maxFileSize : Int := defaultMaxFileSize
  includeProviders : List String := []
  excludeProviders : List String := []
  includePatterns : List String := defaultIncludePatterns
  excludePatterns : List String := defaultExcludePatterns
  respectGitignore : Bool := true
  followSymlinks : Bool := false
  framework : Option String := none
  workers : Int := 4
  deriving DecidableEq, Repr

end EnvCensus
