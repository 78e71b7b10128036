/-! Powers have natural exponents here, and are taken as the core library takes them. -/

attribute [instance (2000)] instPowNat

attribute [default_instance 100000] instPowNat
